import TimedBridge.Proofs.Simulation.Driven
import TimedBridge.Proofs.Simulation.Flow

/-!
A bridge between a generator and a memory. The generator takes every response and stalls exactly while
it is owed a retry (`Bridge.Joins`); the memory changes bytes only, apart from what it takes and
refuses. `Simulation.flow` is the flow of accesses through a simulation; it is not touched by what a
simulation does for its report, and an event that the agents ask for counts as soon as it is asked for.
-/

namespace TimedBridge

/-! ### The agents -/

/-- The generator after it has been sent the retry that it is owed. -/
def Generator.woken (g : Generator) : RetryState → Generator
  | .idle => g
  | .pending => Initiator.retryRequest g

namespace Memory

theorem store_eq (m : Memory) (a : Address) (bytes : List UInt8) :
    m.store a bytes = { m with bytes := (m.store a bytes).bytes } := by
  induction bytes generalizing m a with
  | nil => rfl
  | cons b rest ih => rw [store, ih]

/-- An access changes nothing but bytes. -/
theorem perform_eq (m : Memory) (p : Packet) :
    (m.perform p).1 = { m with bytes := (m.perform p).1.bytes } := by
  rw [perform]
  split
  · rfl
  · split
    · exact m.store_eq ..
    · rfl
  · split
    · exact m.store_eq ..
    · rfl
  · rfl
  · rfl

theorem id_perform (m : Memory) (p : Packet) : (m.perform p).2.id = p.id := by
  rw [perform]
  split
  · rfl
  · split <;> rfl
  · split <;> rfl
  · rfl
  · rfl

variable {m m' : Memory} {p q : Packet}

theorem offer_of_refuses (h : Refuses m.refuseEvery (m.offered + 1)) :
    m.offer p =
      ({ m with offered := m.offered + 1, refusals := m.refusals + 1, owesRetry := true },
        .refused p) :=
  if_pos h

theorem offer_of_takes (h : ¬ Refuses m.refuseEvery (m.offered + 1)) :
    m.offer p =
      ({ m with
          offered := m.offered + 1
          inService := m.inService ++ [p]
          newlyAccepted := m.newlyAccepted + 1 },
        .accepted) :=
  if_neg h

theorem refuses_of_offer_refused (h : m.offer p = (m', .refused q)) :
    Refuses m.refuseEvery (m.offered + 1) ∧ q = p ∧
      m' = { m with
        offered := m.offered + 1
        refusals := m.refusals + 1
        owesRetry := true } := by
  by_cases hrefuses : Refuses m.refuseEvery (m.offered + 1)
  · rw [offer_of_refuses hrefuses] at h
    cases h
    exact ⟨hrefuses, rfl, rfl⟩
  · rw [offer_of_takes hrefuses] at h
    cases h

theorem takes_of_offer_accepted (h : m.offer p = (m', .accepted)) :
    ¬ Refuses m.refuseEvery (m.offered + 1) ∧
      m' = { m with
        offered := m.offered + 1
        inService := m.inService ++ [p]
        newlyAccepted := m.newlyAccepted + 1 } := by
  by_cases hrefuses : Refuses m.refuseEvery (m.offered + 1)
  · rw [offer_of_refuses hrefuses] at h
    cases h
  · rw [offer_of_takes hrefuses] at h
    cases h
    exact ⟨hrefuses, rfl⟩

end Memory

/-! ### Tickets -/

theorem Crossing.ticket_charge (c : Crossing) (p : Packet) : (c.charge p).ticket = p.ticket := by
  rw [Packet.ticket, id_charge, expectsResponse_charge, Packet.ticket]

theorem Packet.Overwritten.ticket_eq {writes : List Packet} {p p' : Packet}
    (h : Overwritten writes p p') : p'.ticket = p.ticket := by
  rw [h.rest]
  rfl

/-- A functional access leaves the tickets in their places. -/
theorem TransmitQueue.tickets_snoop {q q' : TransmitQueue} {access left : Packet} {served : Bool}
    (h : q.snoop access = (q', left, served)) :
    q'.packets.map Packet.ticket = q.packets.map Packet.ticket := by
  have hover := TransmitQueue.overwritten_snoop h
  have hsame : List.Forall₂ Eq (q.packets.map Packet.ticket) (q'.packets.map Packet.ticket) := by
    rw [List.forall₂_map_left_iff, List.forall₂_map_right_iff]
    exact hover.imp fun _ _ h => h.ticket_eq.symm
  rw [List.forall₂_eq_eq_eq] at hsame
  exact hsame.symm

/-! ### The bridge between them -/

namespace Bridge

variable {b : Bridge Generator Memory} {g : Generator} {m : Memory}

/-- The bridge is between the two agents. The generator has refused no response, and it stalls exactly
while it is owed a retry. -/
structure Joins (b : Bridge Generator Memory) (g : Generator) (m : Memory) : Prop where
  initiator : b.front.agent = some g
  target : b.back.agent = some m
  keen : b.front.responses.awaitingRetry = false
  stalled : g.stalled = true ↔ b.front.retry = .pending

/-- The bridge after the owed retry has been sent. -/
def wake (b : Bridge Generator Memory) (g : Generator) : Bridge Generator Memory :=
  match b.front.retry with
  | .idle => b
  | .pending =>
    { b with front := { b.front with retry := .idle, agent := some (Initiator.retryRequest g) } }

/-- With a generator there, the owed retry is sent. -/
theorem sendOwedRetry_of_bound (h : b.front.agent = some g) :
    b.sendOwedRetry.state = b.wake g ∧ b.sendOwedRetry.answer = .ok () := by
  have hend := owedRetry_sendOwedRetry b
  generalize b.sendOwedRetry = called at hend ⊢
  cases hend with
  | none hretry => simp [wake, hretry]
  | lost hretry hagent => simp [h] at hagent
  | sent hretry hagent =>
    obtain rfl := Option.some.inj (h.symm.trans hagent)
    simp [wake, hretry]

theorem Joins.wake (h : b.Joins g m) : (b.wake g).Joins (g.woken b.front.retry) m := by
  rw [Bridge.wake]
  cases hretry : b.front.retry with
  | idle => exact h
  | pending => exact ⟨rfl, h.target, h.keen, iff_of_false Bool.false_ne_true RetryState.noConfusion⟩

end Bridge

/-! ### The flow of a simulation -/

namespace Simulation

variable {s : Simulation} {g : Generator} {m : Memory}

/-- The flow of accesses through a simulation with the given agents. -/
def flow (s : Simulation) (g : Generator) (m : Memory) : Flow where
  now := s.now
  ranges := s.bridge.front.ranges
  refuseEvery := m.refuseEvery
  offered := m.offered
  pending := g.pending
  queued := s.bridge.back.requests.packets.map Packet.ticket
  awaiting := s.bridge.back.requests.awaitingRetry
  inService := m.inService.map Packet.ticket
  waiting := s.bridge.table.entries.map Prod.fst
  returning := s.bridge.front.responses.size
  retry := s.bridge.front.retry
  issues :=
    if g.retryReceived then s.now ::ₘ s.agenda.ticks .issue else s.agenda.ticks .issue
  completions := (s.agenda.ticks .complete).card + m.newlyAccepted
  retries := (s.agenda.ticks .memoryRetry).card + m.owesRetry.toNat
  armed := s.armed

/-- The agents have been looked after: all that they ask for is scheduled. -/
structure Quiet (g : Generator) (m : Memory) : Prop where
  retryReceived : g.retryReceived = false
  newlyAccepted : m.newlyAccepted = 0
  owesRetry : m.owesRetry = false

theorem ticks_scheduleAsked (s : Simulation) (effects : List Effect) (event : SimEvent)
    (hevent : ∀ d, event ≠ .send d) :
    (s.scheduleAsked effects).agenda.ticks event = s.agenda.ticks event := by
  rw [scheduleAsked]
  induction Effect.asked effects generalizing s with
  | nil => rfl
  | cons ask rest ih =>
    rw [List.foldl_cons, ih]
    exact (Agenda.ticks_schedule ..).trans (if_neg (hevent ask.2).symm)

theorem rest_scheduleAsked (s : Simulation) (effects : List Effect) :
    (s.scheduleAsked effects).now = s.now ∧ (s.scheduleAsked effects).armed = s.armed := by
  rw [scheduleAsked]
  induction Effect.asked effects generalizing s with
  | nil => exact ⟨rfl, rfl⟩
  | cons ask rest ih => exact ih (s.schedule (.send ask.2) ask.1)

/-- Attempts to send are no part of the flow. -/
theorem flow_adopt {α : Type} (s : Simulation) (o : Outcome (Bridge Generator Memory) α)
    (g : Generator) (m : Memory) : (s.adopt o).flow g m = { s with bridge := o.state }.flow g m := by
  obtain ⟨hnow, harmed⟩ := { s with bridge := o.state }.rest_scheduleAsked o.effects
  have hticks := { s with bridge := o.state }.ticks_scheduleAsked o.effects
  simp only [flow, bridge_adopt]
  simp only [adopt, hnow, harmed, hticks .issue (by simp), hticks .complete (by simp),
    hticks .memoryRetry (by simp)]

theorem flow_wake (s : Simulation) (g : Generator) (m : Memory) (h : g.retryReceived = false) :
    { s with bridge := s.bridge.wake g }.flow (g.woken s.bridge.front.retry) m = (s.flow g m).wake := by
  rw [Bridge.wake]
  cases hretry : s.bridge.front.retry with
  | idle => simp [flow, Flow.wake, hretry, Generator.woken, now, h]
  | pending => simp [flow, Flow.wake, hretry, Generator.woken, now, h, Initiator.retryRequest]

/-! ### Events -/

variable {tick : Tick} {event : SimEvent} {agenda : Agenda SimEvent}

/-- When an attempt to send comes due, the flow only moves on in time. -/
theorem flow_pop_send {d : Direction} (hpop : s.agenda.pop? = some (tick, .send d, agenda))
    (hquiet : Quiet g m) :
    { s with agenda }.flow g m = { s.flow g m with now := tick } := by
  obtain ⟨-, -, hnow, -⟩ := Agenda.pending_of_pop hpop
  have hticks := Agenda.ticks_of_pop hpop
  simp [flow, now, hnow, hticks, hquiet.retryReceived]

theorem flow_pop_complete (hpop : s.agenda.pop? = some (tick, .complete, agenda))
    (hquiet : Quiet g m) :
    ∃ completions, (s.flow g m).completions = completions + 1 ∧
      { s with agenda }.flow g m = { s.flow g m with now := tick, completions } := by
  obtain ⟨-, -, hnow, -⟩ := Agenda.pending_of_pop hpop
  have hticks := Agenda.ticks_of_pop hpop
  refine ⟨(agenda.ticks .complete).card, ?_, ?_⟩
  · simp [flow, hticks, hquiet.newlyAccepted]
  · simp [flow, now, hnow, hticks, hquiet.retryReceived, hquiet.newlyAccepted]

theorem flow_pop_memoryRetry (hpop : s.agenda.pop? = some (tick, .memoryRetry, agenda))
    (hquiet : Quiet g m) :
    ∃ retries, (s.flow g m).retries = retries + 1 ∧
      { s with agenda }.flow g m = { s.flow g m with now := tick, retries } := by
  obtain ⟨-, -, hnow, -⟩ := Agenda.pending_of_pop hpop
  have hticks := Agenda.ticks_of_pop hpop
  refine ⟨(agenda.ticks .memoryRetry).card, ?_, ?_⟩
  · simp [flow, hticks, hquiet.owesRetry]
  · simp [flow, now, hnow, hticks, hquiet.retryReceived, hquiet.owesRetry]

theorem flow_pop_issue (hpop : s.agenda.pop? = some (tick, .issue, agenda)) (hquiet : Quiet g m) :
    ∃ rest, (s.flow g m).issues = tick ::ₘ rest ∧ (∀ u ∈ rest, tick ≤ u) ∧
      { s with agenda }.flow g m = { s.flow g m with now := tick, issues := rest } := by
  obtain ⟨-, -, hnow, -⟩ := Agenda.pending_of_pop hpop
  have hticks := Agenda.ticks_of_pop hpop
  refine ⟨agenda.ticks .issue, ?_, fun u hu => hnow ▸ Agenda.le_of_mem_ticks hu, ?_⟩
  · simp [flow, hticks, hquiet.retryReceived]
  · simp [flow, now, hnow, hticks, hquiet.retryReceived]

/-- When no event is left, nothing of the flow is scheduled. -/
theorem flow_of_pop_none (hpop : s.agenda.pop? = none) (hquiet : Quiet g m) :
    (s.flow g m).issues = 0 ∧ (s.flow g m).completions = 0 ∧ (s.flow g m).retries = 0 := by
  have hticks := Agenda.ticks_of_pop_none hpop
  refine ⟨?_, ?_, ?_⟩
  · simp [flow, hticks, hquiet.retryReceived]
  · simp [flow, hticks, hquiet.newlyAccepted]
  · simp [flow, hticks, hquiet.owesRetry]

end Simulation

end TimedBridge
