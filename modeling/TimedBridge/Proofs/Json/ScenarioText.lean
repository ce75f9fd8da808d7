import Mathlib.Tactic.FinCases
import TimedBridge.Proofs.Json.Layout
import TimedBridge.Scenario.Json

/-!
Scenarios read back from their texts. The layouts say how each record of a scenario may stand in a text; a
scenario whose accesses are in the order of their ticks is read back from every such text
(`Scenario.ofText_compact`), whatever its settings are worth to a bridge.
-/

namespace TimedBridge

open Json

/-! ### Layouts of the records -/

/-- The layout of ranges. -/
def AddressRange.layout : Layout AddressRange where
  shape := shape
  facets := [
    { name := "start", value := .word64, get := first, put := fun r first => { r with first }
      required := true, put_get := fun _ => rfl },
    { name := "end", value := .word64, get := last, put := fun r last => { r with last }
      required := true, put_get := fun _ => rfl }]
  fields := rfl
  nodup := by decide
  commute := by
    intro f hf g hg a b
    fin_cases hf <;> fin_cases hg <;> rfl
  complete := by
    rintro ⟨⟩ ⟨⟩
    rfl

/-- The layout of the settings of a bridge. -/
def BridgeConfig.layout : Layout BridgeConfig where
  shape := shape
  facets := [
    { name := "request_delay", value := .word64, get := requestDelay
      put := fun c requestDelay => { c with requestDelay }, put_get := fun _ => rfl },
    { name := "response_delay", value := .word64, get := responseDelay
      put := fun c responseDelay => { c with responseDelay }, put_get := fun _ => rfl },
    { name := "request_queue_capacity", value := .count, get := requestCapacity
      put := fun c requestCapacity => { c with requestCapacity }, put_get := fun _ => rfl },
    { name := "response_queue_capacity", value := .count, get := responseCapacity
      put := fun c responseCapacity => { c with responseCapacity }, put_get := fun _ => rfl },
    { name := "ranges", value := .array AddressRange.layout.spelling, get := ranges
      put := fun c ranges => { c with ranges }, put_get := fun _ => rfl },
    { name := "traffic_tag", value := .word32, get := trafficTag
      put := fun c trafficTag => { c with trafficTag }, put_get := fun _ => rfl },
    { name := "tag_base_addr", value := .word64, get := tagBase
      put := fun c tagBase => { c with tagBase }, put_get := fun _ => rfl },
    { name := "clock_period", value := .word64, get := clockPeriod
      put := fun c clockPeriod => { c with clockPeriod }, put_get := fun _ => rfl },
    { name := "timing_hints", value := .variant Hints.names Hints.text (by rintro ⟨⟩ <;> rfl)
      get := timingHints, put := fun c timingHints => { c with timingHints }
      put_get := fun _ => rfl }]
  fields := rfl
  nodup := by decide
  commute := by
    intro f hf g hg a b
    fin_cases hf <;> fin_cases hg <;> rfl
  complete := by
    rintro ⟨⟩ ⟨⟩
    rfl

/-- The layout of accesses. -/
def TrafficItem.layout : Layout TrafficItem where
  shape := shape
  facets := [
    { name := "kind", value := .variant AccessKind.names AccessKind.text (by rintro ⟨⟩ <;> rfl)
      get := kind, put := fun i kind => { i with kind }, required := true
      put_get := fun _ => rfl },
    { name := "addr", value := .word64, get := address, put := fun i address => { i with address }
      required := true, put_get := fun _ => rfl },
    { name := "size", value := .word64, get := size, put := fun i size => { i with size }
      put_get := fun _ => rfl },
    { name := "at", value := .word64, get := tick, put := fun i tick => { i with tick }
      put_get := fun _ => rfl },
    { name := "mode", value := .variant AccessMode.names AccessMode.text (by rintro ⟨⟩ <;> rfl)
      get := mode, put := fun i mode => { i with mode }, put_get := fun _ => rfl },
    { name := "fill", value := .byte, get := fill, put := fun i fill => { i with fill }
      put_get := fun _ => rfl }]
  fields := rfl
  nodup := by decide
  commute := by
    intro f hf g hg a b
    fin_cases hf <;> fin_cases hg <;> rfl
  complete := by
    rintro ⟨⟩ ⟨⟩
    rfl

/-- The layout of the settings of the memory. -/
def MemorySpec.layout : Layout MemorySpec where
  shape := shape
  facets := [
    { name := "latency", value := .word64, get := latency, put := fun m latency => { m with latency }
      put_get := fun _ => rfl },
    { name := "refuse_every", value := .word32, get := refuseEvery
      put := fun m refuseEvery => { m with refuseEvery }, put_get := fun _ => rfl }]
  fields := rfl
  nodup := by decide
  commute := by
    intro f hf g hg a b
    fin_cases hf <;> fin_cases hg <;> rfl
  complete := by
    rintro ⟨⟩ ⟨⟩
    rfl

/-- The layout of scenarios. -/
def Scenario.layout : Layout Scenario where
  shape := shape
  facets := [
    { name := "bridge", value := BridgeConfig.layout.spelling, get := bridge
      put := fun s bridge => { s with bridge }, put_get := fun _ => rfl },
    { name := "memory", value := MemorySpec.layout.spelling, get := memory
      put := fun s memory => { s with memory }, put_get := fun _ => rfl },
    { name := "traffic", value := .array TrafficItem.layout.spelling, get := traffic
      put := fun s traffic => { s with traffic }, put_get := fun _ => rfl }]
  fields := rfl
  nodup := by decide
  commute := by
    intro f hf g hg a b
    fin_cases hf <;> fin_cases hg <;> rfl
  complete := by
    rintro ⟨⟩ ⟨⟩
    rfl

theorem AddressRange.regular_shape : shape.Regular := layout.regular

theorem BridgeConfig.regular_shape : shape.Regular := layout.regular

theorem TrafficItem.regular_shape : shape.Regular := layout.regular

theorem MemorySpec.regular_shape : shape.Regular := layout.regular

theorem Scenario.regular_shape : shape.Regular := layout.regular

/-! ### What is written -/

theorem AddressRange.spells_toJson (r : AddressRange) : layout.Spells r r.toJson :=
  .inOrder (.cons ⟨rfl, rfl⟩ (.cons ⟨rfl, rfl⟩ .nil))

theorem BridgeConfig.spells_toJson (c : BridgeConfig) : layout.Spells c c.toJson :=
  .inOrder (.cons ⟨rfl, rfl⟩ (.cons ⟨rfl, rfl⟩ (.cons ⟨rfl, rfl⟩ (.cons ⟨rfl, rfl⟩
    (.cons ⟨rfl, Spelling.array_spells AddressRange.spells_toJson c.ranges⟩
      (.cons ⟨rfl, rfl⟩ (.cons ⟨rfl, rfl⟩ (.cons ⟨rfl, rfl⟩ (.cons ⟨rfl, rfl⟩ .nil)))))))))

theorem TrafficItem.spells_toJson (i : TrafficItem) : layout.Spells i i.toJson :=
  .inOrder (.cons ⟨rfl, rfl⟩ (.cons ⟨rfl, rfl⟩ (.cons ⟨rfl, rfl⟩ (.cons ⟨rfl, rfl⟩
    (.cons ⟨rfl, rfl⟩ (.cons ⟨rfl, rfl⟩ .nil))))))

theorem MemorySpec.spells_toJson (m : MemorySpec) : layout.Spells m m.toJson :=
  .inOrder (.cons ⟨rfl, rfl⟩ (.cons ⟨rfl, rfl⟩ .nil))

theorem Scenario.spells_toJson (sc : Scenario) : layout.Spells sc sc.toJson :=
  .inOrder (.cons ⟨rfl, sc.bridge.spells_toJson⟩ (.cons ⟨rfl, sc.memory.spells_toJson⟩
    (.cons ⟨rfl, Spelling.array_spells TrafficItem.spells_toJson sc.traffic⟩ .nil)))

/-! ### Reading what is written -/

/-- Accesses in the order of their ticks are not refused. -/
theorem firstUnordered?_eq_none {traffic : List TrafficItem}
    (h : traffic.Pairwise fun i j => i.tick ≤ j.tick) (position : Nat) :
    firstUnordered? position traffic = none := by
  induction traffic generalizing position with
  | nil => rfl
  | cons i rest ih =>
    rw [List.pairwise_cons] at h
    cases rest with
    | nil => rfl
    | cons j rest =>
      rw [firstUnordered?, if_neg (UInt64.not_lt.2 (h.1 j List.mem_cons_self)), ih h.2]

namespace Scenario

theorem run_compact {sc : Scenario} {j : Json} (h : layout.Spells sc j) :
    Reader.run shape.read j.compact = .ok sc := by
  rw [Reader.run_text (Shape.regular_read regular_shape) (textIs_compact h.sized)]
  exact h.outcome_eq

/-- A scenario whose accesses are in the order of their ticks is read back from its text, and from any
other text that spells it. -/
theorem ofText_compact (sc : Scenario) (hordered : sc.traffic.Pairwise fun i j => i.tick ≤ j.tick) :
    ofText sc.toJson.compact = .ok sc ∧
      ∀ j, layout.Spells sc j → ofText j.compact = .ok sc := by
  have hspelt : ∀ j, layout.Spells sc j → ofText j.compact = .ok sc := by
    intro j hj
    rw [ofText, run_compact hj]
    dsimp only
    rw [firstUnordered?_eq_none hordered]
  exact ⟨hspelt _ sc.spells_toJson, hspelt⟩

/-- A scenario with an inverted range and the largest word of each size. -/
def wide : Scenario where
  bridge := { ranges := [⟨0xffffffffffffffff, 0⟩, .all], trafficTag := 0xffffffff }
  memory := { refuseEvery := 3 }
  traffic := [
    { kind := .write, address := 0xffffffffffffffff, tick := 5, fill := 0xff },
    { kind := .read, address := 64, size := 0, tick := 5, mode := .atomic }]

/-- The scenario `wide` with records as arrays, keys in other orders and defaults left out. -/
def wideSpelling : Json := .object [
  ("traffic", .array [
    .array [.string "write", .number 0xffffffffffffffff, .number 8, .number 5, .string "timing",
      .number 0xff],
    .object [("mode", .string "atomic"), ("at", .number 5), ("size", .number 0),
      ("addr", .number 64), ("kind", .string "read")]]),
  ("memory", .object [("refuse_every", .number 3)]),
  ("bridge", .object [
    ("traffic_tag", .number 0xffffffff),
    ("ranges", .array [
      .object [("end", .number 0), ("start", .number 0xffffffffffffffff)],
      .array [.number 0, .number 0xffffffffffffffff]])])]

theorem spells_wideSpelling : layout.Spells wide wideSpelling := by
  have hwrite : TrafficItem.layout.Spells
      { kind := .write, address := 0xffffffffffffffff, tick := 5, fill := 0xff }
      (.array [.string "write", .number 0xffffffffffffffff, .number 8, .number 5, .string "timing",
        .number 0xff]) :=
    .array (.cons rfl (.cons rfl (.cons rfl (.cons rfl (.cons rfl (.cons rfl .nil))))))
  have hread : TrafficItem.layout.Spells
      { kind := .read, address := 64, size := 0, tick := 5, mode := .atomic }
      (.object [("mode", .string "atomic"), ("at", .number 5), ("size", .number 0),
        ("addr", .number 64), ("kind", .string "read")]) := by
    refine .permuted ([4, 3, 2, 1, 0] : List (Fin 6)) ([5] : List (Fin 6)) (by decide) ?_ fun i hi => ?_
    · exact .cons ⟨rfl, rfl⟩ (.cons ⟨rfl, rfl⟩ (.cons ⟨rfl, rfl⟩ (.cons ⟨rfl, rfl⟩
        (.cons ⟨rfl, rfl⟩ .nil))))
    · fin_cases hi
      exact ⟨rfl, rfl⟩
  have hmemory : MemorySpec.layout.Spells { refuseEvery := 3 }
      (.object [("refuse_every", .number 3)]) := by
    refine .permuted ([1] : List (Fin 2)) ([0] : List (Fin 2)) (by decide) ?_ fun i hi => ?_
    · exact .cons ⟨rfl, rfl⟩ .nil
    · fin_cases hi
      exact ⟨rfl, rfl⟩
  have hinverted : AddressRange.layout.Spells ⟨0xffffffffffffffff, 0⟩
      (.object [("end", .number 0), ("start", .number 0xffffffffffffffff)]) := by
    refine .permuted ([1, 0] : List (Fin 2)) [] (by decide) ?_ (List.forall_mem_nil _)
    exact .cons ⟨rfl, rfl⟩ (.cons ⟨rfl, rfl⟩ .nil)
  have hall : AddressRange.layout.Spells .all (.array [.number 0, .number 0xffffffffffffffff]) :=
    .array (.cons rfl (.cons rfl .nil))
  have hbridge : BridgeConfig.layout.Spells wide.bridge
      (.object [("traffic_tag", .number 0xffffffff),
        ("ranges", .array [
          .object [("end", .number 0), ("start", .number 0xffffffffffffffff)],
          .array [.number 0, .number 0xffffffffffffffff]])]) := by
    refine .permuted ([5, 4] : List (Fin 9)) ([0, 1, 2, 3, 6, 7, 8] : List (Fin 9)) (by decide) ?_
      fun i hi => ?_
    · exact .cons ⟨rfl, rfl⟩ (.cons ⟨rfl, _, rfl, .cons hinverted (.cons hall .nil)⟩ .nil)
    · fin_cases hi <;> exact ⟨rfl, rfl⟩
  refine .permuted ([2, 1, 0] : List (Fin 3)) [] (by decide) ?_ (List.forall_mem_nil _)
  exact .cons ⟨rfl, _, rfl, .cons hwrite (.cons hread .nil)⟩
    (.cons ⟨rfl, hmemory⟩ (.cons ⟨rfl, hbridge⟩ .nil))

theorem ofText_wideSpelling :
    (wide.traffic.Pairwise fun i j => i.tick ≤ j.tick) ∧ layout.Spells wide wideSpelling ∧
      ofText wide.toJson.compact = .ok wide ∧ ofText wideSpelling.compact = .ok wide := by
  have hordered : wide.traffic.Pairwise fun i j => i.tick ≤ j.tick := by decide
  have htext := ofText_compact wide hordered
  exact ⟨hordered, spells_wideSpelling, htext.1, htext.2 _ spells_wideSpelling⟩

end Scenario

end TimedBridge
