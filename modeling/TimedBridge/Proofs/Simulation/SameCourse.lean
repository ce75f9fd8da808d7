import TimedBridge.Proofs.Simulation.Alike
import TimedBridge.Proofs.Simulation.Moves

/-!
Labels and data have no part in the timing of a simulation. Two scenarios that differ in their tags, in the
treatment of hints and in the bytes that are written carry out the same events at the same ticks, and have
the same report under another tag (`exists_sameCourse`).
-/

namespace TimedBridge

/-- The scenarios have the same accesses and the same settings, but for labels and data. -/
structure Scenario.Relabels (sc sc' : Scenario) : Prop where
  bridge : sc'.bridge =
    { sc.bridge with
      trafficTag := sc'.bridge.trafficTag
      tagBase := sc'.bridge.tagBase
      timingHints := sc'.bridge.timingHints }
  memory : sc'.memory = sc.memory
  traffic : List.Forall₂ (fun item item' => item' = { item with fill := item'.fill })
    sc.traffic sc'.traffic

/-- All of a simulation but labels and data. -/
def Sight.plain : Sight where
  rename := .refl _
  shows _ := true
  labelled := false
  counts := true

/-- A packet that carries bytes looks like any that carries as many. -/
theorem Rendering.packet_carrying {r : Rendering} (h : r.HidesBytes) (command : Command)
    (id : RequestId) (address : Address) (source : Route) {bytes bytes' : List UInt8}
    (hlength : bytes.length = bytes'.length) :
    r.packet (.carrying command id address bytes source) =
      r.packet (.carrying command id address bytes' source) := by
  rw [Packet.carrying, Packet.carrying, Rendering.packet, Rendering.packet, Guise.packet, Guise.packet,
    hlength]
  simp only [Option.map_some, h bytes bytes' hlength]

namespace Sight

theorem comparable_plain : plain.Comparable plain where
  counts := rfl
  all _ := rfl
  hidden _ hmode := by cases hmode

/-- Reports that look alike differ in the tag only. -/
theorem report_eq {report report' : Report} (h : plain.report report' = plain.report report) :
    report' = { report with trafficTag := report'.trafficTag } :=
  congrArg (fun seen : Report => { seen with trafficTag := report'.trafficTag }) h

/-- The byte that a write repeats cannot be told from its access. -/
theorem issue_plain (item : TrafficItem) (fill : UInt8) (id : RequestId) :
    plain.rendering.issue ({ item with fill }.issue id) = plain.rendering.issue (item.issue id) := by
  have hlength : { item with fill }.bytes.length = item.bytes.length := by
    simp [TrafficItem.bytes]
  have hcarrying (command : Command) :=
    Rendering.packet_carrying plain.hidesBytes_rendering command id item.address generatorRoute hlength
  have hpacket : plain.rendering.packet ({ item with fill }.packet id) =
      plain.rendering.packet (item.packet id) := by
    rw [TrafficItem.packet, TrafficItem.packet]
    cases item.kind with
    | read => rfl
    | write => exact hcarrying .writeRequest
    | writeback => exact hcarrying .writeback
  exact congrArg (fun packet => Issue.mk packet item.tick item.mode) hpacket

theorem issues_plain {traffic traffic' : List TrafficItem}
    (h : List.Forall₂ (fun item item' : TrafficItem => item' = { item with fill := item'.fill })
      traffic traffic') (number : Nat) :
    (numberedIssues number traffic').map plain.rendering.issue =
      (numberedIssues number traffic).map plain.rendering.issue := by
  induction h generalizing number with
  | nil => rfl
  | @cons item item' rest rest' hitem _ ih =>
    rw [numberedIssues, numberedIssues, List.map_cons, List.map_cons, ih (number + 1), hitem, issue_plain]

end Sight

namespace Scenario

variable {sc sc' : Scenario}

/-- Labels are not checked. -/
theorem Relabels.validate (h : sc.Relabels sc') : sc'.bridge.validate = sc.bridge.validate := by
  rw [h.bridge]
  rfl

theorem Relabels.bridge_eq (h : sc.Relabels sc') (valid : sc.bridge.validate = .ok ())
    {b b' : Bridge Generator Memory} (hb : Bridge.ofConfig "bridge" sc.bridge = .ok b)
    (hb' : Bridge.ofConfig "bridge" sc'.bridge = .ok b') :
    Sight.plain.portrait.bridge b = Sight.plain.portrait.bridge b' := by
  rw [Bridge.ofConfig, valid] at hb
  rw [Bridge.ofConfig, h.validate, valid, h.bridge] at hb'
  cases hb
  cases hb'
  rfl

end Scenario

namespace Simulation

variable {sc sc' : Scenario} {s : Simulation}

/-- Scenarios that differ in labels and data make simulations that do. -/
theorem exists_alike_plain (h : sc.Relabels sc') (valid : sc.bridge.validate = .ok ())
    (hs : ofScenario sc = .ok s) : ∃ s', ofScenario sc' = .ok s' ∧ Alike .plain .plain s s' := by
  obtain ⟨b, hb, -⟩ := Bridge.exists_ofConfig (υ := Generator) (δ := Memory) "bridge" valid
  obtain ⟨b', hb', -⟩ :=
    Bridge.exists_ofConfig (υ := Generator) (δ := Memory) "bridge" (h.validate.trans valid)
  have hfilter (traffic : List TrafficItem) :=
    Sight.filter_of_all Sight.comparable_plain.all (numberedIssues 1 traffic)
  refine exists_alike Sight.comparable_plain hb hb' (h.bridge_eq valid hb hb') ?_ ?_ ?_ hs
  · rw [hfilter]
    exact (Sight.issues_plain h.traffic 1).symm
  · rw [firstMemory, firstMemory, h.memory, h.bridge]
    rfl
  · intro now
    rw [hfilter]

/-- With accepted settings, and a memory that does not refuse everything, scenarios that differ in labels
and data have simulations that carry out the same events at the same ticks, and that return the same report
but for the tag. -/
theorem exists_sameCourse (valid : sc.bridge.validate = .ok ())
    (hlength : sc.traffic.length ≤ UInt64.size) (hrefuseEvery : sc.memory.refuseEvery ≠ 1)
    (hrelabels : sc.Relabels sc') :
    ∃ s s' n report report', ofScenario sc = .ok s ∧ ofScenario sc' = .ok s' ∧
      (∀ k, s'.dispatched k = s.dispatched k) ∧ s.run? n = some (.ok report) ∧
      s'.run? n = some (.ok report') ∧ report' = { report with trafficTag := report'.trafficTag } := by
  obtain ⟨s, g, m, hs, hrunning, hflow⟩ := exists_running valid hlength
  obtain ⟨s', hs', halike⟩ := exists_alike_plain hrelabels valid hs
  obtain ⟨n, report, hrun⟩ := hrunning.returns (hflow ▸ (ending_first_iff sc).2 (.inl hrefuseEvery))
  have hkeeps : Sight.plain.Keeps (s.flow g m) := .inl Sight.comparable_plain.all
  obtain ⟨report', hrun', hreport⟩ := halike.run? Sight.comparable_plain hkeeps hrunning hrun
  have hevents := halike.dispatched_eq Sight.comparable_plain hkeeps hrunning
  exact ⟨s, s', n, report, report', hs, hs', hevents, hrun, hrun', Sight.report_eq hreport⟩

/-- Accesses of every kind, through a memory that refuses every other request. -/
def labelled (trafficTag : TrafficTag) (tagBase : Address) (timingHints : Hints) (fill : UInt8) :
    Scenario where
  bridge := { trafficTag, tagBase, timingHints, requestDelay := 2 }
  memory := { latency := 3, refuseEvery := 2 }
  traffic := [
    { kind := .write, address := 0, fill },
    { kind := .read, address := 0, tick := 1 },
    { kind := .write, address := 8, tick := 1, mode := .atomic, fill },
    { kind := .writeback, address := 0, tick := 2, fill },
    { kind := .read, address := 8, tick := 2, mode := .functional }]

/-- Neither the tag nor the hints nor the bytes that are written can be told from the course. -/
theorem sameCourse_labelled :
    ∃ s s' n report report', ofScenario (labelled 1 0x1000 .accumulate 0x11) = .ok s ∧
      ofScenario (labelled 2 0x2000 .zero 0x22) = .ok s' ∧
      (∀ k, s'.dispatched k = s.dispatched k) ∧ s.run? n = some (.ok report) ∧
      s'.run? n = some (.ok report') ∧ report' = { report with trafficTag := report'.trafficTag } :=
  exists_sameCourse rfl (by decide) (by decide)
    ⟨rfl, rfl, .cons rfl (.cons rfl (.cons rfl (.cons rfl (.cons rfl .nil))))⟩

end Simulation

end TimedBridge
