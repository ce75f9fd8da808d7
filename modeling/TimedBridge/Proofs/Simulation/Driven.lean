import TimedBridge.Proofs.Agenda
import TimedBridge.Proofs.Bridge.Replies
import TimedBridge.Proofs.Bridge.Retry
import TimedBridge.Proofs.Host
import TimedBridge.Simulation

/-!
A simulation is a host. It makes attempts only when they come due, and each of its other calls is
followed by scheduling what the call asks for, so no packet is left without a wake-up and none has two.
As long as no call of it meets a duplicate, its slots add up and its owed retry has a reason
(`Simulation.Driven`).
-/

namespace TimedBridge

/-! ### The accounts of a bridge -/

/-- The slots add up without a forfeited one, an owed retry has its reason, and there are slots for
requests. -/
structure Ledger.Sound (l : Ledger) : Prop where
  balanced : l.Balanced 0
  justified : l.Justified
  requestSlots : 0 < l.requestSlots

namespace Ledger

variable {l l' : Ledger} {posting : Posting}

theorem Sound.step (h : l.Sound) (hposts : Posts posting l l') (hforfeit : posting ≠ .forfeit) :
    l'.Sound := by
  refine ⟨?_, h.justified.step hposts, ?_⟩
  · have hbalanced := h.balanced.step hposts
    rwa [if_neg hforfeit] at hbalanced
  · rw [hposts.slots_eq.1]
    exact h.requestSlots

/-- A retry is owed only while something is on its way. -/
theorem Sound.idle (h : l.Sound) (hrequests : l.requests = 0) (hreserved : l.reserved = 0) :
    l.retry = .idle := by
  cases hretry : l.retry with
  | idle => rfl
  | pending =>
    have hrequestSlots := h.requestSlots
    have hresponseSlots := h.balanced.forfeits_lt
    rcases h.justified hretry with hfull | hfull <;> omega

end Ledger

namespace SimEvent

/-- The event as one of a host. -/
def hosted : SimEvent → HostEvent SimEvent
  | .send direction => .send direction
  | event => .other event

end SimEvent

namespace Simulation

variable {s : Simulation} {tick : Tick} {event : SimEvent} {agenda : Agenda SimEvent}

/-- The simulation as a host. -/
def host (s : Simulation) : Host Generator Memory SimEvent where
  bridge := s.bridge
  agenda := s.agenda.map SimEvent.hosted

/-- What keeps a simulation going between its steps. -/
structure Driven (s : Simulation) : Prop where
  tended : s.host.TendedOnce
  sound : s.bridge.ledger.Sound

/-! ### Calls -/

/-- The outcome is that of a call which succeeds. -/
structure Makes {α : Type} (s : Simulation) (operation : Operation Generator Memory)
    (o : Outcome (Bridge Generator Memory) α) : Prop where
  state : o.state = (s.bridge.perform s.now operation).state
  effects : o.effects = (s.bridge.perform s.now operation).effects
  answer : (s.bridge.perform s.now operation).answer.isOk = true

theorem host_scheduleAsked (s : Simulation) (effects : List Effect) :
    (s.scheduleAsked effects).host =
      { s.host with agenda := s.host.agenda.scheduleSends (Effect.asked effects) } := by
  rw [scheduleAsked, Agenda.scheduleSends]
  induction Effect.asked effects generalizing s with
  | nil => rfl
  | cons ask rest ih =>
    rw [List.foldl_cons, List.foldl_cons, ih]
    simp only [host, schedule, ← Agenda.schedule_map, SimEvent.hosted]

variable {α : Type} {operation : Operation Generator Memory}
  {o : Outcome (Bridge Generator Memory) α}

/-- A call that answers well succeeds. -/
theorem makes_of_answering {called : Call Generator Memory α} {f : α → Answer} {answer : α}
    (hperform : s.bridge.perform s.now operation = called.answering f)
    (hanswer : called.answer = .ok answer) : s.Makes operation called := by
  refine ⟨?_, ?_, ?_⟩
  · rw [hperform]
    rfl
  · rw [hperform]
    rfl
  · rw [hperform, Outcome.answering, hanswer]
    rfl

/-- To take over what a call has left behind is to make the call. -/
theorem Makes.host_adopt (h : s.Makes operation o) : (s.adopt o).host = s.host.call operation := by
  rw [adopt, host_scheduleAsked, h.effects]
  simp only [host, Host.call, h.state]
  rfl

theorem Makes.sound (h : s.Makes operation o) (hsound : s.bridge.ledger.Sound) :
    o.state.ledger.Sound := by
  rw [h.state]
  refine hsound.step (s.bridge.posts_turn s.now operation) fun hforfeit => ?_
  obtain ⟨packet, id, -, hanswer⟩ := Turn.duplicate_of_forfeit hforfeit
  have hok := h.answer
  rw [show (s.bridge.perform s.now operation).answer = _ from hanswer] at hok
  contradiction

theorem bridge_adopt (s : Simulation) (o : Outcome (Bridge Generator Memory) α) :
    (s.adopt o).bridge = o.state :=
  congrArg Host.bridge (host_scheduleAsked { s with bridge := o.state } o.effects)

theorem Driven.adopt (h : s.Driven) (hmakes : s.Makes operation o)
    (hattempt : ∀ d, operation ≠ .attempt d) : (s.adopt o).Driven := by
  refine ⟨?_, ?_⟩
  · rw [hmakes.host_adopt]
    exact h.tended.call hattempt
  · rw [bridge_adopt]
    exact hmakes.sound h.sound

/-- An attempt that has come due is made at once. -/
theorem Driven.attempt (h : s.Driven) {d : Direction}
    (hpop : s.agenda.pop? = some (tick, .send d, agenda))
    (hmakes : { s with agenda }.Makes (.attempt d) o) : ({ s with agenda }.adopt o).Driven := by
  refine ⟨?_, ?_⟩
  · have hnext := h.tended.next
    rw [Host.next, show s.host.agenda.pop? = _ from Agenda.pop?_map SimEvent.hosted hpop] at hnext
    rw [hmakes.host_adopt]
    exact hnext
  · rw [bridge_adopt]
    exact hmakes.sound h.sound

/-! ### Events -/

theorem Driven.popped (h : s.Driven) (hpop : s.agenda.pop? = some (tick, event, agenda))
    (hevent : ∀ d, event ≠ .send d) : { s with agenda }.Driven := by
  refine ⟨?_, h.sound⟩
  have hnext := h.tended.next
  rw [Host.next, show s.host.agenda.pop? = _ from Agenda.pop?_map SimEvent.hosted hpop] at hnext
  cases event with
  | send d => exact absurd rfl (hevent d)
  | _ => exact hnext

theorem Driven.schedule (h : s.Driven) (hevent : ∀ d, event ≠ .send d) (tick : Tick) :
    (s.schedule event tick).Driven := by
  refine ⟨?_, h.sound⟩
  have hact : (s.host.act (.schedule event tick)).TendedOnce :=
    h.tended.act fun _ heq => nomatch heq
  have hhost : (s.schedule event tick).host = s.host.act (.schedule event tick) := by
    simp only [host, Simulation.schedule, ← Agenda.schedule_map, Host.act]
    cases event with
    | send d => exact absurd rfl (hevent d)
    | _ => rfl
  rw [hhost]
  exact hact

/-- An attempt comes due for a head that may leave. -/
theorem Driven.due (h : s.Driven) {d : Direction}
    (hpop : s.agenda.pop? = some (tick, .send d, agenda)) :
    (s.bridge.queue d).awaitingRetry = false ∧
      ∃ head rest, (s.bridge.queue d).entries = head :: rest ∧ head.ready ≤ tick := by
  obtain ⟨-, hawaiting, hdue⟩ := h.tended.due (Agenda.pop?_map SimEvent.hosted hpop)
  obtain ⟨-, -, hnow, -⟩ := Agenda.pending_of_pop hpop
  rw [show (agenda.map SimEvent.hosted).now = tick from hnow] at hdue
  exact ⟨hawaiting, hdue⟩

/-- With no event left, a queue is empty unless the agent owes it a retry. -/
theorem Driven.entries_eq_nil (h : s.Driven) (hpop : s.agenda.pop? = none) {d : Direction}
    (hawaiting : (s.bridge.queue d).awaitingRetry = false) : (s.bridge.queue d).entries = [] := by
  by_contra hne
  have hawake := h.tended.awake d
  have hdues : s.host.agenda.dues d = [] := by
    simp [host, Agenda.dues, Agenda.map, Agenda.pending_of_pop_none hpop]
  have hcount := hawake.count
  rw [hdues, hawake.busy hne, show (s.host.bridge.queue d).awaitingRetry = false from hawaiting]
    at hcount
  contradiction

/-! ### Agents -/

theorem Driven.withGenerator (h : s.Driven) (g : Generator) : (s.withGenerator g).Driven := by
  have hcall : (s.host.call (.bindInitiator g)).TendedOnce :=
    h.tended.call fun _ heq => nomatch heq
  exact ⟨hcall, h.sound⟩

theorem Driven.withMemory (h : s.Driven) (m : Memory) : (s.withMemory m).Driven := by
  have hcall : (s.host.call (.bindTarget m)).TendedOnce :=
    h.tended.call fun _ heq => nomatch heq
  exact ⟨hcall, h.sound⟩

end Simulation

end TimedBridge
