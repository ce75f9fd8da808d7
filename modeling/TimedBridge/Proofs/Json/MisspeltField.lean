import Mathlib.Tactic.FinCases
import TimedBridge.Proofs.Json.ExtraMember
import TimedBridge.Proofs.Json.ScenarioText

/-!
Misspelt fields in the text of a scenario. A member that is no field of the record in which it stands is
refused in the scenario itself, in the settings of the memory and in every access, wherever it stands and
whatever its value is; in the settings of the bridge and in its ranges it is overlooked
(`Scenario.ofText_misspelt`).
-/

namespace TimedBridge

open Json

/-! ### The records of a scenario -/

open Reader Shape

namespace Scenario

/-- Where a record of a shape stands in a scenario. -/
inductive Stands : {α : Type} → Shape α → (Document → Document) → Prop
  | scenario : Stands shape id
  | bridge {place : Document → Document} (h : FieldOf shape "bridge" place) :
    Stands BridgeConfig.shape place
  | range {bridge ranges place : Document → Document} (hbridge : FieldOf shape "bridge" bridge)
      (hranges : FieldOf BridgeConfig.shape "ranges" ranges) (h : ElementOf place) :
    Stands AddressRange.shape fun v => bridge (ranges (place v))
  | memory {place : Document → Document} (h : FieldOf shape "memory" place) :
    Stands MemorySpec.shape place
  | access {traffic place : Document → Document} (htraffic : FieldOf shape "traffic" traffic)
      (h : ElementOf place) :
    Stands TrafficItem.shape fun v => traffic (place v)

variable {α : Type} {s : Shape α} {place : Document → Document}

theorem Stands.regular (h : Stands s place) : s.Regular := by
  cases h with
  | scenario => exact regular_shape
  | bridge => exact BridgeConfig.regular_shape
  | range => exact AddressRange.regular_shape
  | memory => exact MemorySpec.regular_shape
  | access => exact TrafficItem.regular_shape

theorem readBy_bridge : shape.ReadBy "bridge" BridgeConfig.shape.read := by
  intro f hf hname
  fin_cases hf
  all_goals first | exact ⟨_, _, rfl⟩ | exact absurd hname (by decide)

theorem readBy_ranges : BridgeConfig.shape.ReadBy "ranges" (array AddressRange.shape.read) := by
  intro f hf hname
  fin_cases hf
  all_goals first | exact ⟨_, _, rfl⟩ | exact absurd hname (by decide)

theorem readBy_memory : shape.ReadBy "memory" MemorySpec.shape.read := by
  intro f hf hname
  fin_cases hf
  all_goals first | exact ⟨_, _, rfl⟩ | exact absurd hname (by decide)

theorem readBy_traffic : shape.ReadBy "traffic" (array TrafficItem.shape.read) := by
  intro f hf hname
  fin_cases hf
  all_goals first | exact ⟨_, _, rfl⟩ | exact absurd hname (by decide)

/-- What becomes of a record becomes of the scenario. -/
theorem Stands.reacts (h : Stands s place) {fault? : Option ReadFault} {v v' : Document}
    (hv : Reacts fault? (s.read.outcome v) (s.read.outcome v')) :
    Reacts fault? (shape.read.outcome (place v)) (shape.read.outcome (place v')) := by
  cases h with
  | scenario => exact hv
  | bridge h => exact reacts_field regular_shape readBy_bridge hv h
  | range hbridge hranges h =>
    have hrange := reacts_element (regular_read AddressRange.regular_shape) hv h
    have hconfig := reacts_field BridgeConfig.regular_shape readBy_ranges hrange hranges
    exact reacts_field regular_shape readBy_bridge hconfig hbridge
  | memory h => exact reacts_field regular_shape readBy_memory hv h
  | access htraffic h =>
    have haccess := reacts_element (regular_read TrafficItem.regular_shape) hv h
    exact reacts_field regular_shape readBy_traffic haccess htraffic

/-! ### Texts -/

/-- The second text is the first with one more member in an object that stands for a record of the shape,
and its key is no field of the record. -/
inductive Misspells (s : Shape α) (key : Except Flaw String) (text text' : String) : Prop
  | intro {place : Document → Document} {before after : List (Except Flaw String × Document)}
      {v : Document} (hplace : Stands s place) (hkey : ∀ name, key = .ok name → name ∉ s.names)
      (htext : (place (.object (before ++ after))).TextIs text)
      (htext' : (place (.object (before ++ (key, v) :: after))).TextIs text')

variable {key : Except Flaw String} {text text' : String} {sc : Scenario}

/-- The second value is the first with one more member in an object. -/
theorem Misspells.compact (hplace : Stands s place) (hkey : ∀ name, key = .ok name → name ∉ s.names)
    (before after : List (Except Flaw String × Document)) (v : Document) {j j' : Json}
    (hj : j.document = place (.object (before ++ after)))
    (hj' : j'.document = place (.object (before ++ (key, v) :: after))) (hsized : j.Sized)
    (hsized' : j'.Sized) : Misspells s key j.compact j'.compact := by
  have htext := textIs_compact hsized
  have htext' := textIs_compact hsized'
  rw [hj] at htext
  rw [hj'] at htext'
  exact .intro hplace hkey htext htext'

theorem Misspells.run_eq (h : Misspells s key text text') :
    Reacts (s.refusal? key) (shape.read.run text) (shape.read.run text') := by
  obtain ⟨hplace, hkey, htext, htext'⟩ := h
  rw [run_text (regular_read regular_shape) htext, run_text (regular_read regular_shape) htext']
  exact hplace.reacts (reacts_member hplace.regular hkey _ _ _)

theorem Misspells.ofText_eq (h : Misspells s key text text') (hread : ofText text = .ok sc) :
    ofText text' = match s.refusal? key with
      | none => .ok sc
      | some fault => .error (.unreadable fault) := by
  rw [ofText] at hread
  cases hrun : shape.read.run text with
  | error fault =>
    rw [hrun] at hread
    cases hread
  | ok read =>
    rw [ofText, h.run_eq read hrun]
    rw [hrun] at hread
    cases s.refusal? key with
    | none => exact hread
    | some fault => rfl

/-- The fault of a text in which a record with the given fields has a key that is none of them. -/
def refusal (names : List String) : Except Flaw String → ScenarioFault
  | .ok name => .unreadable (.unfit (.unknownField name names))
  | .error f => .unreadable (.flawed f)

/-- What comes of a text in which a key is overlooked, as long as it is a string at all. -/
def overlooking (sc : Scenario) : Except Flaw String → Except ScenarioFault Scenario
  | .ok _ => .ok sc
  | .error f => .error (.unreadable (.flawed f))

/-- A misspelt field is refused everywhere but in the settings of the bridge and in its ranges. There the
scenario is read as if the field had not been given. -/
theorem ofText_misspelt (hread : ofText text = .ok sc) :
    (Misspells Scenario.shape key text text' →
        ofText text' = .error (refusal Scenario.shape.names key)) ∧
      (Misspells MemorySpec.shape key text text' →
        ofText text' = .error (refusal MemorySpec.shape.names key)) ∧
      (Misspells TrafficItem.shape key text text' →
        ofText text' = .error (refusal TrafficItem.shape.names key)) ∧
      (Misspells BridgeConfig.shape key text text' → ofText text' = overlooking sc key) ∧
      (Misspells AddressRange.shape key text text' → ofText text' = overlooking sc key) := by
  refine ⟨fun h => ?_, fun h => ?_, fun h => ?_, fun h => ?_, fun h => ?_⟩
  all_goals
    rw [h.ofText_eq hread]
    cases key <;> rfl

/-- Settings of a bridge with two ranges, to the second of which members may be added. -/
def sampleBridge (members : List (String × Json)) : Json := .object [("ranges", .array [
  .array [.number 0, .number 63],
  .object ([("start", .number 64), ("end", .number 127)] ++ members)])]

/-- An access, to which members may be added. -/
def sampleTraffic (members : List (String × Json)) : Json :=
  .array [.object ([("kind", .string "read"), ("addr", .number 64)] ++ members)]

/-- A scenario with two ranges and an access. -/
def sample (range access : List (String × Json)) : Json :=
  .object [("bridge", sampleBridge range), ("traffic", sampleTraffic access)]

theorem sized_sample {range access : List (String × Json)} (hrange : ∀ m ∈ range, m.2.Sized)
    (haccess : ∀ m ∈ access, m.2.Sized) : (sample range access).Sized := by
  have hwords : ∀ v ∈ [Json.number 0, .number 63], v.Sized :=
    List.forall_mem_cons.2 ⟨.number (by decide), List.forall_mem_singleton.2 (.number (by decide))⟩
  have hbounds : ∀ m ∈ [("start", Json.number 64), ("end", .number 127)] ++ range, m.2.Sized :=
    List.forall_mem_cons.2 ⟨.number (by decide), List.forall_mem_cons.2 ⟨.number (by decide), hrange⟩⟩
  have hfields : ∀ m ∈ [("kind", Json.string "read"), ("addr", .number 64)] ++ access, m.2.Sized :=
    List.forall_mem_cons.2 ⟨.string _, List.forall_mem_cons.2 ⟨.number (by decide), haccess⟩⟩
  have hbridge : (sampleBridge range).Sized := .object (List.forall_mem_singleton.2
    (.array (List.forall_mem_cons.2 ⟨.array hwords, List.forall_mem_singleton.2 (.object hbounds)⟩)))
  have htraffic : (sampleTraffic access).Sized :=
    .array (List.forall_mem_singleton.2 (.object hfields))
  exact .object (List.forall_mem_cons.2 ⟨hbridge, List.forall_mem_singleton.2 htraffic⟩)

theorem ofText_misspeltSize :
    ∃ sc, ofText (sample [] []).compact = .ok sc ∧
      Misspells TrafficItem.shape (.ok "sise") (sample [] []).compact
        (sample [] [("sise", .number 4)]).compact ∧
      ofText (sample [] [("sise", .number 4)]).compact =
        .error (.unreadable (.unfit (.unknownField "sise" TrafficItem.shape.names))) ∧
      Misspells AddressRange.shape (.ok "nd") (sample [] []).compact
        (sample [("nd", .number 4)] []).compact ∧
      ofText (sample [("nd", .number 4)] []).compact = .ok sc := by
  have hnone : ∀ m ∈ ([] : List (String × Json)), m.2.Sized := List.forall_mem_nil _
  have hone (k : String) : ∀ m ∈ [(k, Json.number 4)], m.2.Sized :=
    List.forall_mem_singleton.2 (.number (by decide))
  have hread : ofText (sample [] []).compact = .ok {
      bridge := { ranges := [⟨0, 63⟩, ⟨64, 127⟩] }
      traffic := [{ kind := .read, address := 64 }] } := by rfl
  have haccess : Misspells TrafficItem.shape (.ok "sise") (sample [] []).compact
      (sample [] [("sise", .number 4)]).compact :=
    .compact
      (.access (.member (by decide) (memberDocuments [("bridge", sampleBridge [])]) []) (.intro [] []))
      (by rintro _ ⟨⟩; decide) (memberDocuments [("kind", .string "read"), ("addr", .number 64)]) []
      (Json.number 4).document rfl rfl (sized_sample hnone hnone) (sized_sample hnone (hone "sise"))
  have hrange : Misspells AddressRange.shape (.ok "nd") (sample [] []).compact
      (sample [("nd", .number 4)] []).compact :=
    .compact
      (.range (.member (by decide) [] (memberDocuments [("traffic", sampleTraffic [])]))
        (.member (by decide) [] []) (.intro (documents [.array [.number 0, .number 63]]) []))
      (by rintro _ ⟨⟩; decide) (memberDocuments [("start", .number 64), ("end", .number 127)]) []
      (Json.number 4).document rfl rfl (sized_sample hnone hnone) (sized_sample (hone "nd") hnone)
  exact ⟨_, hread, haccess, (ofText_misspelt hread).2.2.1 haccess, hrange,
    (ofText_misspelt hread).2.2.2.2 hrange⟩

/-- The misspelt capacity of a queue is not refused, and the queue has the capacity that it has by
default. -/
theorem accepted_misspeltCapacity :
    Misspells BridgeConfig.shape (.ok "request_queue_capacty") "\x7b\"bridge\":\x7b\x7d\x7d"
        "\x7b\"bridge\":\x7b\"request_queue_capacty\":1\x7d\x7d" ∧
      ofText "\x7b\"bridge\":\x7b\x7d\x7d" = .ok {} ∧
      ofText "\x7b\"bridge\":\x7b\"request_queue_capacty\":1\x7d\x7d" = .ok {} := by
  have hplain : (Json.object [("bridge", .object [])]).Sized :=
    .object (List.forall_mem_singleton.2 (.object (List.forall_mem_nil _)))
  have hmisspelt : (Json.object [("bridge", .object [("request_queue_capacty", .number 1)])]).Sized :=
    .object (List.forall_mem_singleton.2 (.object (List.forall_mem_singleton.2 (.number (by decide)))))
  have hmisspells : Misspells BridgeConfig.shape (.ok "request_queue_capacty")
      (Json.object [("bridge", .object [])]).compact
      (Json.object [("bridge", .object [("request_queue_capacty", .number 1)])]).compact :=
    .compact (.bridge (.member (by decide) [] [])) (by rintro _ ⟨⟩; decide) [] []
      (Json.number 1).document rfl rfl hplain hmisspelt
  exact ⟨hmisspells, rfl, rfl⟩

end Scenario

end TimedBridge
