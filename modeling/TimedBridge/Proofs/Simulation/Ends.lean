import TimedBridge.Proofs.Simulation.Start
import TimedBridge.Proofs.Simulation.Work

/-!
How a simulation ends. With accepted settings no step fails, and when no event is left, nothing is
left to do (`exists_faultless`). The simulation ends unless the memory refuses everything and an access
has to go through it (`exists_ends_iff`).
-/

namespace TimedBridge

/-- A timed access that one of the ranges covers, so that it goes through the bridge's queues. -/
def TrafficItem.Crosses (ranges : List AddressRange) (item : TrafficItem) : Prop :=
  item.mode = .timing ∧ ∃ range ∈ ranges, range.covers (.ofSpan item.address item.size) = true

instance (ranges : List AddressRange) (item : TrafficItem) : Decidable (item.Crosses ranges) :=
  inferInstanceAs (Decidable (_ ∧ _))

namespace Simulation

variable {s : Simulation} {g : Generator} {m : Memory}

/-- The simulation after a number of steps. -/
def after (s : Simulation) : Nat → Simulation
  | 0 => s
  | n + 1 => s.step.1.after n

/-! ### When no event is left -/

/-- Nothing is left to do. -/
structure Drained (s : Simulation) : Prop where
  /-- Every access has been issued. -/
  issued : ∃ g, s.bridge.front.agent = some g ∧ g.pending = []
  /-- No response slot is reserved. -/
  outstanding : s.bridge.front.reserved = 0
  queues : ∀ d, (s.bridge.queue d).entries = []
  table : s.bridge.table.entries = []
  inService : ∃ m, s.bridge.back.agent = some m ∧ m.inService = []

theorem Running.drained (h : s.Running g m) (hpop : s.agenda.pop? = none) : s.Drained := by
  obtain ⟨hissues, hcompletions, hretries⟩ := flow_of_pop_none hpop h.quiet
  obtain ⟨hserved, hawaiting⟩ := h.settled.served.idle hcompletions hretries
  have hinService : m.inService = [] := List.map_eq_nil_iff.1 hserved
  have hresponses : s.bridge.front.responses.entries = [] :=
    h.driven.entries_eq_nil hpop (d := .response) h.joins.keen
  have hrequests : s.bridge.back.requests.entries = [] :=
    h.driven.entries_eq_nil hpop (d := .request) hawaiting
  have htable : s.bridge.table.entries = [] := by
    have hwaiting : s.bridge.table.entries.map Prod.fst = _ := h.consistent.waiting
    simpa [flow, TransmitQueue.packets, hinService, hrequests] using hwaiting
  have hreserved : s.bridge.front.reserved = 0 := by
    have hbalance : s.bridge.table.entries.length + s.bridge.front.responses.entries.length + 0 =
        s.bridge.front.reserved := h.driven.sound.balanced.balance
    simpa [htable, hresponses] using hbalance.symm
  have hpending : g.pending = [] := by
    -- With nothing on its way, no retry is owed, so an access that is left would have its issue.
    have hretry : s.bridge.front.retry = .idle :=
      h.driven.sound.idle (congrArg List.length hrequests) hreserved
    by_contra hne
    exact h.settled.prompt.progress hretry hne hissues
  refine ⟨⟨g, h.joins.initiator, hpending⟩, hreserved, ?_, htable, m, h.joins.target, hinService⟩
  rintro (_ | _)
  · exact hrequests
  · exact hresponses

/-- What is read off a simulation that has no event left. -/
theorem conclude_eq_ok_iff (hinitiator : s.bridge.front.agent = some g)
    (htarget : s.bridge.back.agent = some m) {report : Report} :
    s.conclude = .ok report ↔ g.pending = [] ∧ s.bridge.front.reserved = 0 ∧
      { s.report with retries := g.retries, memoryRefusals := m.refusals, finalTick := s.now } =
        report := by
  rw [Simulation.conclude, generator_of_bound hinitiator, memory_of_bound htarget]
  dsimp only
  by_cases hleft : 0 < g.remaining ∨ 0 < s.bridge.front.reserved
  · rw [if_pos hleft]
    refine iff_of_false (by simp) ?_
    rintro ⟨hpending, hreserved, -⟩
    simp [Generator.remaining, hpending, hreserved] at hleft
  · rw [if_neg hleft]
    rw [not_or, Nat.not_lt, Nat.not_lt, Nat.le_zero, Nat.le_zero, Generator.remaining,
      List.length_eq_zero_iff] at hleft
    simp [Except.map, hleft]

/-- A simulation with nothing left to do has a report. -/
theorem Drained.conclude (h : s.Drained) : ∃ report, s.conclude = .ok report := by
  obtain ⟨⟨g, hinitiator, hpending⟩, houtstanding, -, -, m, htarget, -⟩ := h
  exact ⟨_, (conclude_eq_ok_iff hinitiator htarget).2 ⟨hpending, houtstanding, rfl⟩⟩

/-! ### No step fails -/

/-- What each step of the flow keeps holds however many steps are made. -/
theorem Running.flow_after {P : Flow → Prop} (h : s.Running g m)
    (hstep : ∀ v v' : Flow, v.Consistent → v.Step v' → P v → P v') (hP : P (s.flow g m)) (n : Nat) :
    ∃ g' m', (s.after n).Running g' m' ∧ P ((s.after n).flow g' m') := by
  induction n generalizing s g m with
  | zero => exact ⟨g, m, h, hP⟩
  | succ n ih =>
    rw [Simulation.after]
    rcases h.step with ⟨-, hsame⟩ | ⟨s', g', m', hmade, hrunning, hflow⟩
    · rw [hsame]
      exact ih h hP
    · rw [hmade]
      exact ih hrunning (hstep _ _ h.consistent hflow hP)

theorem Running.after (h : s.Running g m) (n : Nat) : ∃ g' m', (s.after n).Running g' m' := by
  obtain ⟨g', m', hrunning, -⟩ := h.flow_after (P := fun _ => True) (fun _ _ _ _ _ => trivial) trivial n
  exact ⟨g', m', hrunning⟩

/-- A simulation that does not fail. -/
structure Faultless (s : Simulation) : Prop where
  /-- However many steps are made, the next one succeeds. -/
  step : ∀ n, ∃ more, (s.after n).step.2 = .ok more
  /-- When there was no event, nothing has happened, and nothing is left to do. -/
  drained : ∀ n, (s.after n).step.2 = .ok false → (s.after n).step.1 = s.after n ∧ (s.after n).Drained
  /-- A run that ends gives a report. -/
  run : ∀ n fault, s.run? n ≠ some (.error fault)

theorem Running.run?_ne_error (h : s.Running g m) (n : Nat) (fault : SimFault) :
    s.run? n ≠ some (.error fault) := by
  induction n generalizing s g m with
  | zero => simp [run?]
  | succ n ih =>
    rw [run?]
    rcases h.step with ⟨hpop, hstep⟩ | ⟨s', g', m', hstep, hrunning, -⟩
    · obtain ⟨report, hreport⟩ := (h.drained hpop).conclude
      simp [hstep, hreport]
    · rw [hstep]
      exact ih hrunning

theorem Running.faultless (h : s.Running g m) : s.Faultless := by
  refine ⟨fun n => ?_, fun n hlast => ?_, fun n fault => h.run?_ne_error n fault⟩
  · obtain ⟨g', m', hrunning⟩ := h.after n
    rcases hrunning.step with ⟨-, hstep⟩ | ⟨s', -, -, hstep, -⟩
    · exact ⟨false, congrArg Prod.snd hstep⟩
    · exact ⟨true, congrArg Prod.snd hstep⟩
  · obtain ⟨g', m', hrunning⟩ := h.after n
    rcases hrunning.step with ⟨hpop, hstep⟩ | ⟨s', -, -, hstep, -⟩
    · exact ⟨congrArg Prod.fst hstep, hrunning.drained hpop⟩
    · simp [hstep] at hlast

/-- A simulation of accepted settings never fails and never stalls, whatever its accesses are and
however the memory refuses them. There may be as many accesses as there are identities, which is more
than a list in memory can hold; of more, two would have one identity. -/
theorem exists_faultless {sc : Scenario} (valid : sc.bridge.validate = .ok ())
    (hlength : sc.traffic.length ≤ UInt64.size) :
    ∃ s, ofScenario sc = .ok s ∧ s.Faultless := by
  obtain ⟨s, g, m, hs, hrunning, -⟩ := exists_running valid hlength
  exact ⟨s, hs, hrunning.faultless⟩

/-- A read, a write, a writeback and a functional read share one slot for requests and one for
responses, and the memory refuses every second request. -/
def contended : Scenario where
  bridge := { requestCapacity := 1, responseCapacity := 1 }
  memory := { latency := 3, refuseEvery := 2 }
  traffic := [
    { kind := .read, address := 0 },
    { kind := .write, address := 8 },
    { kind := .writeback, address := 16 },
    { kind := .read, address := 8, mode := .functional }]

theorem faultless_contended :
    ∃ s, ofScenario contended = .ok s ∧ s.Faultless ∧ (s.after 14).Drained := by
  have valid : contended.bridge.validate = .ok () := rfl
  obtain ⟨s, hs, hfaultless⟩ := exists_faultless valid (by decide)
  have hlast : (ofScenario contended).map (fun s => (s.after 14).step.2) = .ok (.ok false) := by
    decide +kernel
  rw [hs] at hlast
  exact ⟨s, hs, hfaultless, (hfaultless.drained 14 (Except.ok.inj hlast)).2⟩

/-! ### Whether a simulation ends -/

theorem Running.ending_of_pop_none (h : s.Running g m) (hpop : s.agenda.pop? = none) :
    (s.flow g m).Ending := by
  obtain ⟨⟨g', hinitiator, hpending⟩, -, hqueues, -⟩ := h.drained hpop
  obtain rfl := Option.some.inj (h.joins.initiator.symm.trans hinitiator)
  right
  rintro (hqueued | ⟨i, hi, -⟩)
  · have hrequests : s.bridge.back.requests.entries = [] := hqueues .request
    simp [flow, TransmitQueue.packets, hrequests] at hqueued
  · rw [show (s.flow g m).pending = [] from hpending] at hi
    contradiction

/-- While the memory refuses everything that has to go through it, there is always an event. -/
theorem Running.run?_eq_none (h : s.Running g m) (hblocked : ¬ (s.flow g m).Ending) (n : Nat) :
    s.run? n = none := by
  induction n generalizing s g m with
  | zero => rfl
  | succ n ih =>
    rw [run?]
    rcases h.step with ⟨hpop, -⟩ | ⟨s', g', m', hstep, hrunning, hflow⟩
    · exact absurd (h.ending_of_pop_none hpop) hblocked
    · rw [hstep]
      exact ih hrunning fun hending => hblocked (hflow.ending_iff.1 hending)

/-- Otherwise the work runs out. -/
theorem Running.ends (h : s.Running g m) (hending : (s.flow g m).Ending) :
    ∃ n, (s.run? n).isSome = true := by
  generalize hwork : (s.flow g m).work = work
  induction work using Nat.strongRecOn generalizing s g m with
  | ind work ih =>
    rcases h.step with ⟨-, hstep⟩ | ⟨s', g', m', hstep, hrunning, hflow⟩
    · refine ⟨1, ?_⟩
      rw [run?, hstep]
      rfl
    · have hlt := hflow.work_lt h.settled hending
      obtain ⟨n, hn⟩ := ih _ (hwork ▸ hlt) hrunning (hflow.ending_iff.2 hending) rfl
      refine ⟨n + 1, ?_⟩
      rw [run?, hstep]
      exact hn

theorem crosses_issue_iff (sc : Scenario) (item : TrafficItem) (id : RequestId) :
    (firstFlow sc).Crosses (item.issue id) ↔ item.Crosses sc.bridge.ranges := by
  rw [Flow.Crosses, TrafficItem.Crosses, List.any_eq_true, TrafficItem.issue, item.footprint_packet]
  rfl

theorem ending_first_iff (sc : Scenario) :
    (firstFlow sc).arm.Ending ↔
      sc.memory.refuseEvery ≠ 1 ∨ ∀ item ∈ sc.traffic, ¬ item.Crosses sc.bridge.ranges := by
  have hcrossing := exists_mem_numberedIssues (crosses_issue_iff sc) 1 sc.traffic
  have hblocked : (firstFlow sc).Blocked ↔ ∃ item ∈ sc.traffic, item.Crosses sc.bridge.ranges := by
    rw [Flow.Blocked, ← hcrossing]
    exact or_iff_right fun hqueued => hqueued rfl
  rw [Flow.Ending, Flow.refuseEvery_arm, Flow.blocked_arm_iff, hblocked]
  simp only [not_exists, not_and]
  rfl

/-- A simulation of accepted settings, with no more accesses than there are 64-bit identities, ends exactly
if the memory does not refuse everything or no timed access goes through the bridge's queues. Neither the
last tick nor the end of the memory's count of offers makes a difference. -/
theorem exists_ends_iff {sc : Scenario} (valid : sc.bridge.validate = .ok ())
    (hlength : sc.traffic.length ≤ UInt64.size) :
    ∃ s, ofScenario sc = .ok s ∧
      ((∃ n, (s.run? n).isSome = true) ↔
        sc.memory.refuseEvery ≠ 1 ∨ ∀ item ∈ sc.traffic, ¬ item.Crosses sc.bridge.ranges) := by
  obtain ⟨s, g, m, hs, hrunning, hflow⟩ := exists_running valid hlength
  refine ⟨s, hs, ?_⟩
  rw [← ending_first_iff, ← hflow]
  constructor
  · rintro ⟨n, hn⟩
    by_contra hblocked
    rw [hrunning.run?_eq_none hblocked n] at hn
    contradiction
  · exact hrunning.ends

/-- One read before a memory that refuses some requests or all. -/
def oneRead (refuseEvery : UInt32) : Scenario where
  memory := { refuseEvery }
  traffic := [{ kind := .read, address := 0 }]

theorem ends_oneRead :
    (∃ s, ofScenario (oneRead 2) = .ok s ∧ ∃ n, (s.run? n).isSome = true) ∧
      ∃ s, ofScenario (oneRead 1) = .ok s ∧ ¬ ∃ n, (s.run? n).isSome = true := by
  have valid : ∀ refuseEvery, (oneRead refuseEvery).bridge.validate = .ok () := fun _ => rfl
  obtain ⟨s, hs, hends⟩ := exists_ends_iff (valid 2) (by decide)
  obtain ⟨s', hs', hends'⟩ := exists_ends_iff (valid 1) (by decide)
  refine ⟨⟨s, hs, hends.2 (by decide)⟩, s', hs', fun hended => ?_⟩
  exact absurd (hends'.1 hended) (by decide)

end Simulation

end TimedBridge
