import TimedBridge.Proofs.Simulation.Issuing

/-!
The steps of a simulation. Looking after the agents schedules what they ask for and changes nothing
else about the flow (`shows_lookAfter`). So a simulation between two steps either has no event left, or
makes a step of the flow without a fault and is between two steps again (`Running.step`).
-/

namespace TimedBridge

/-- The memory after a look. -/
def Memory.rested (m : Memory) : Memory := { m with newlyAccepted := 0, owesRetry := false }

/-- The generator after a look. -/
def Generator.rested (g : Generator) : Generator := { g with retryReceived := false, responses := [] }

namespace Simulation

variable {s : Simulation} {g : Generator} {m : Memory} {v : Flow}

/-- A simulation that is kept going, with the given agents and the given flow. -/
structure Shows (s : Simulation) (g : Generator) (m : Memory) (v : Flow) : Prop where
  driven : s.Driven
  joins : s.bridge.Joins g m
  flow_eq : s.flow g m = v

/-! ### Looking after the memory -/

theorem Shows.schedule_complete (h : s.Shows g m v) (tick : Tick) :
    (s.schedule .complete tick).Shows g m { v with completions := v.completions + 1 } := by
  have hnow : (s.agenda.schedule .complete tick).now = s.agenda.now := rfl
  have hticks (event : SimEvent) := Agenda.ticks_schedule s.agenda .complete tick event
  refine ⟨h.driven.schedule (by simp) tick, h.joins, ?_⟩
  simp [← h.flow_eq, flow, Simulation.schedule, hticks, now, hnow, Nat.add_right_comm]

theorem Shows.schedule_memoryRetry (h : s.Shows g m v) (tick : Tick) :
    (s.schedule .memoryRetry tick).Shows g m { v with retries := v.retries + 1 } := by
  have hnow : (s.agenda.schedule .memoryRetry tick).now = s.agenda.now := rfl
  have hticks (event : SimEvent) := Agenda.ticks_schedule s.agenda .memoryRetry tick event
  refine ⟨h.driven.schedule (by simp) tick, h.joins, ?_⟩
  simp [← h.flow_eq, flow, Simulation.schedule, hticks, now, hnow, Nat.add_right_comm]

/-- A completion is scheduled for each request that was taken. -/
theorem Shows.schedule_completions (h : s.Shows g m v) (l : List Nat) (tick : Tick) :
    (l.foldl (fun s _ => s.schedule .complete tick) s).Shows g m
      { v with completions := v.completions + l.length } := by
  induction l generalizing s v with
  | nil => exact h
  | cons _ rest ih =>
    have hrest := ih (h.schedule_complete tick)
    rwa [Nat.add_assoc, Nat.add_comm 1] at hrest

/-- What the memory asks for is scheduled. -/
theorem shows_lookAfterMemory (h : s.Shows g m v) :
    ∃ s', s.lookAfterMemory = (s', .ok ()) ∧ s'.Shows g m.rested v := by
  have hmemory : s.memory = .ok m := by
    simp only [memory, h.joins.target]
  have hcounts : v = { v with
      completions := (s.agenda.ticks .complete).card + m.newlyAccepted
      retries := (s.agenda.ticks .memoryRetry).card + m.owesRetry.toNat } := by
    rw [← h.flow_eq]
    rfl
  have hlooked : (s.withMemory m.rested).Shows g m.rested
      { v with
        completions := (s.agenda.ticks .complete).card
        retries := (s.agenda.ticks .memoryRetry).card } := by
    refine ⟨h.driven.withMemory _, ⟨h.joins.initiator, rfl, h.joins.keen, h.joins.stalled⟩, ?_⟩
    rw [← h.flow_eq]
    rfl
  have hcompleted :=
    hlooked.schedule_completions (List.range m.newlyAccepted) (cappedAdd s.now m.latency)
  rw [List.length_range] at hcompleted
  rw [lookAfterMemory, hmemory]
  by_cases howed : m.owesRetry = true
  · refine ⟨_, Prod.ext (if_pos howed) rfl, ?_⟩
    rw [howed] at hcounts
    rw [hcounts]
    exact hcompleted.schedule_memoryRetry _
  · refine ⟨_, Prod.ext (if_neg howed) rfl, ?_⟩
    rw [eq_false_of_ne_true howed] at hcounts
    rw [hcounts]
    exact hcompleted

/-! ### Looking after the generator -/

theorem Shows.schedule_issue (h : s.Shows g m v) :
    (s.schedule .issue s.now).Shows g m { v with issues := v.now ::ₘ v.issues } := by
  refine ⟨h.driven.schedule (by simp) s.now, h.joins, ?_⟩
  rw [flow_schedule_issue s g m (UInt64.le_refl _), ← h.flow_eq]
  rfl

/-- Counting a response changes only the books. -/
theorem countResponse_eq (s : Simulation) (p : Packet) :
    s.countResponse p =
      { s with issuedAt := (s.countResponse p).issuedAt, report := (s.countResponse p).report } := by
  rw [countResponse]
  split <;> rfl

theorem Shows.countResponses (h : s.Shows g m v) (responses : List Packet) :
    (responses.foldl countResponse s).Shows g m v := by
  induction responses generalizing s with
  | nil => exact h
  | cons p rest ih =>
    refine ih ?_
    rw [countResponse_eq]
    exact ⟨h.driven.books _ _, h.joins, h.flow_eq⟩

/-- A retry that has come lets the generator issue. -/
theorem shows_lookAfterGenerator (h : s.Shows g m v) :
    ∃ s', s.lookAfterGenerator = (s', .ok ()) ∧ s'.Shows g.rested m v := by
  have hissues : v = { v with
      issues := if g.retryReceived then v.now ::ₘ s.agenda.ticks .issue
        else s.agenda.ticks .issue } := by
    rw [← h.flow_eq]
    rfl
  have hlooked : (s.withGenerator g.rested).Shows g.rested m
      { v with issues := s.agenda.ticks .issue } := by
    refine ⟨h.driven.withGenerator _, ⟨rfl, h.joins.target, h.joins.keen, h.joins.stalled⟩, ?_⟩
    rw [← h.flow_eq]
    rfl
  have hcounted := hlooked.countResponses g.responses
  rw [lookAfterGenerator, generator_of_bound h.joins.initiator]
  by_cases hreceived : g.retryReceived = true
  · refine ⟨_, Prod.ext (if_pos hreceived) rfl, ?_⟩
    rw [if_pos hreceived] at hissues
    rw [hissues]
    exact hcounted.schedule_issue
  · refine ⟨_, Prod.ext (if_neg hreceived) rfl, ?_⟩
    rw [if_neg hreceived] at hissues
    rw [hissues]
    exact hcounted

/-- Looking after the agents leaves the flow as it is. -/
theorem shows_lookAfter (h : s.Shows g m v) :
    ∃ s', s.lookAfter = (s', .ok ()) ∧ s'.Shows g.rested m.rested v := by
  obtain ⟨s₁, hmemory, hshows₁⟩ := shows_lookAfterMemory h
  obtain ⟨s₂, hgenerator, hshows₂⟩ := shows_lookAfterGenerator hshows₁
  refine ⟨s₂, ?_, hshows₂⟩
  rw [lookAfter, hmemory]
  exact hgenerator

/-! ### Steps -/

/-- An event that issues nothing is carried out. -/
theorem Running.carried_rest (h : s.Running g m) {tick : Tick} {event : SimEvent}
    {agenda : Agenda SimEvent} (hpop : s.agenda.pop? = some (tick, event, agenda))
    (hevent : event ≠ .issue) :
    Carried (fun v => (s.flow g m).Step v ∧ (s.flow g m).Tends v)
      ({ s with agenda }.dispatch event) := by
  cases event with
  | send d =>
    cases d with
    | request => exact carried_sendRequest h hpop
    | response => exact carried_sendResponse h hpop
  | issue => exact absurd rfl hevent
  | complete => exact carried_complete h hpop
  | memoryRetry => exact carried_memoryRetry h hpop

/-- Every event is carried out. -/
theorem Running.carried (h : s.Running g m) {tick : Tick} {event : SimEvent} {agenda : Agenda SimEvent}
    (hpop : s.agenda.pop? = some (tick, event, agenda)) :
    Carried (s.flow g m).Step ({ s with agenda }.dispatch event) := by
  by_cases hevent : event = .issue
  · subst hevent
    exact carried_issue h hpop
  · exact (h.carried_rest hpop hevent).mono fun _ hv => hv.1

/-- A simulation has no event left, or makes a step. -/
theorem Running.step (h : s.Running g m) :
    (s.agenda.pop? = none ∧ s.step = (s, .ok false)) ∨
      ∃ s' g' m', s.step = (s', .ok true) ∧ s'.Running g' m' ∧ (s.flow g m).Step (s'.flow g' m') := by
  rw [Simulation.step]
  split
  next hpop => exact .inl ⟨hpop, rfl⟩
  next tick event agenda hpop =>
    right
    obtain ⟨s₁, g₁, m₁, hresult, hdriven, hjoins, hstep⟩ := h.carried hpop
    obtain ⟨s₂, hlook, hshows⟩ := shows_lookAfter ⟨hdriven, hjoins, rfl⟩
    simp only [hresult, hlook]
    refine ⟨s₂, _, _, rfl, ⟨hshows.driven, hshows.joins, ⟨rfl, rfl, rfl⟩, ?_, ?_⟩, ?_⟩
    · rw [hshows.flow_eq]
      exact hstep.consistent h.consistent
    · rw [hshows.flow_eq]
      exact hstep.settled h.settled
    · rw [hshows.flow_eq]
      exact hstep

end Simulation

end TimedBridge
