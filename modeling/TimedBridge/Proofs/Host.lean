import TimedBridge.Agenda
import TimedBridge.Generator
import TimedBridge.Memory
import TimedBridge.Proofs.Bridge.Credit
import TimedBridge.Proofs.Bridge.Queues

/-!
A host: it drives a bridge from an agenda, on which it puts the attempts to send that the calls ask for
along with events of its own. When an attempt comes due the host makes it at once. However calls and
events follow each other, no packet is left without something that will wake its queue, and as long as
attempts are made only when they come due, none is scheduled twice and none comes too early
(`exists_woken`).
-/

namespace TimedBridge

/-- An event of a host. -/
inductive HostEvent (ε : Type) where
  /-- The attempt to send in a direction comes due. -/
  | send (direction : Direction)
  /-- Any other event. -/
  | other (event : ε)

namespace Agenda

variable {ε : Type}

/-- Schedules the attempts to send that effects ask for. -/
def scheduleSends (a : Agenda (HostEvent ε)) (asked : List (Tick × Direction)) :
    Agenda (HostEvent ε) :=
  asked.foldl (fun a ask => a.schedule (.send ask.2) ask.1) a

/-- The tick of an entry if it is an attempt in the given direction. -/
def Entry.dues (d : Direction) (e : Entry (HostEvent ε)) : List Tick :=
  match e.event with
  | .send d' => if d' = d then [e.due] else []
  | .other _ => []

/-- The ticks for which attempts in a direction are scheduled. -/
def dues (a : Agenda (HostEvent ε)) (d : Direction) : List Tick := a.pending.flatMap (Entry.dues d)

theorem dues_schedule (a : Agenda (HostEvent ε)) (event : HostEvent ε) (tick : Tick) (d : Direction) :
    ((a.schedule event tick).dues d).Perm
      (Entry.dues d ⟨max tick a.now, a.nextSerial, event⟩ ++ a.dues d) :=
  (perm_insert ..).flatMap_right (Entry.dues d)

theorem dues_scheduleSends (a : Agenda (HostEvent ε)) (asked : List (Tick × Direction))
    (d : Direction) :
    ((a.scheduleSends asked).dues d).Perm
      ((asked.filterMap fun ask => if ask.2 = d then some ask.1 else none).map (max · a.now) ++
        a.dues d) := by
  induction asked generalizing a with
  | nil => exact .refl _
  | cons ask rest ih =>
    refine (ih (a.schedule (.send ask.2) ask.1)).trans ?_
    have hdues := a.dues_schedule (.send ask.2) ask.1 d
    rw [List.filterMap_cons]
    by_cases h : ask.2 = d
    · simp only [Entry.dues, if_pos h] at hdues ⊢
      exact (hdues.append_left _).trans List.perm_middle
    · simp only [Entry.dues, if_neg h] at hdues ⊢
      exact hdues.append_left _

/-- Taking the next event moves the clock to its tick and takes it from the ticks of its direction. -/
theorem dues_of_pop {a a' : Agenda (HostEvent ε)} {tick : Tick} {event : HostEvent ε}
    (h : a.pop? = some (tick, event, a')) (d : Direction) :
    a'.now = tick ∧ a.dues d = Entry.dues d ⟨tick, 0, event⟩ ++ a'.dues d := by
  rw [pop?] at h
  split at h
  next => contradiction
  next e rest hpending =>
    obtain ⟨rfl, rfl, rfl⟩ : e.due = tick ∧ e.event = event ∧ _ = a' := by
      simpa only [Option.some.injEq, Prod.mk.injEq] using h
    exact ⟨rfl, congrArg (List.flatMap (Entry.dues d)) hpending⟩

theorem dues_of_pop_send {a a' : Agenda (HostEvent ε)} {tick : Tick} {d : Direction}
    (h : a.pop? = some (tick, .send d, a')) : a.dues d = tick :: a'.dues d := by
  have hdues : Entry.dues d (⟨tick, 0, .send d⟩ : Entry (HostEvent ε)) = [tick] := if_pos rfl
  rw [(dues_of_pop h d).2, hdues]
  rfl

theorem dues_of_pop_of_ne {a a' : Agenda (HostEvent ε)} {tick : Tick} {event : HostEvent ε}
    {d : Direction} (h : a.pop? = some (tick, event, a')) (hne : event ≠ .send d) :
    a.dues d = a'.dues d := by
  have hdues : Entry.dues d (⟨tick, 0, event⟩ : Entry (HostEvent ε)) = [] := by
    cases event with
    | send d' => exact if_neg fun heq => hne (congrArg HostEvent.send heq)
    | other => rfl
  rw [(dues_of_pop h d).2, hdues]
  rfl

end Agenda

/-- A bridge and the agenda that drives it. -/
structure Host (υ δ ε : Type) where
  bridge : Bridge υ δ
  agenda : Agenda (HostEvent ε)

/-- Something that a host does. -/
inductive Host.Action (υ δ ε : Type) where
  /-- A call on the bridge, now. -/
  | call (operation : Operation υ δ)
  /-- Puts an event of the host's own on the agenda. -/
  | schedule (event : ε) (tick : Tick)
  /-- Takes the next event. -/
  | next

namespace Host

variable {υ δ ε : Type}

/-- The host of a bridge, with nothing on its agenda. -/
def start (b : Bridge υ δ) : Host υ δ ε where
  bridge := b
  agenda := { sorted := .nil, current := fun _ hmem => absurd hmem List.not_mem_nil }

variable [Initiator υ] [Target δ]

/-- Makes a call at the time of the agenda and schedules what it asks for. -/
def call (s : Host υ δ ε) (operation : Operation υ δ) : Host υ δ ε :=
  let called := s.bridge.perform s.agenda.now operation
  { bridge := called.state, agenda := s.agenda.scheduleSends (Effect.asked called.effects) }

/-- Takes the next event, if there is one; an attempt that has come due is made at once. -/
def next (s : Host υ δ ε) : Host υ δ ε :=
  match s.agenda.pop? with
  | none => s
  | some (_, .send d, agenda) => { s with agenda }.call (.attempt d)
  | some (_, .other _, agenda) => { s with agenda }

/-- Carries out an action. -/
def act (s : Host υ δ ε) : Action υ δ ε → Host υ δ ε
  | .call operation => s.call operation
  | .schedule event tick => { s with agenda := s.agenda.schedule (.other event) tick }
  | .next => s.next

/-- The host after a sequence of actions. -/
def after (s : Host υ δ ε) (actions : List (Action υ δ ε)) : Host υ δ ε := actions.foldl act s

variable {s : Host υ δ ε}

/-- After a call the attempts that it has asked for are scheduled, none before the time of the call. -/
theorem dues_call (s : Host υ δ ε) (operation : Operation υ δ) (d : Direction) :
    ((s.call operation).agenda.dues d).Perm
      ((Effect.asksFor d (s.bridge.perform s.agenda.now operation).effects).map
          (max · s.agenda.now) ++ s.agenda.dues d) :=
  s.agenda.dues_scheduleSends _ d

/-! ### Attempts at any time -/

/-- The invariant of a host that may make attempts at any time. -/
structure Tended (s : Host υ δ ε) : Prop where
  wired : s.bridge.Wired
  awake : ∀ d, (s.bridge.queue d).Awake (s.agenda.dues d)

/-- An attempt leaves its own queue awake, and the other one as it was. -/
theorem Tended.attempt {d : Direction} (hwired : s.bridge.Wired)
    (hother : ∀ d', d' ≠ d → (s.bridge.queue d').Awake (s.agenda.dues d')) :
    (s.call (.attempt d)).Tended := by
  refine ⟨hwired.perform _ _, fun d' => ?_⟩
  refine TransmitQueue.Awake.perm ?_ (s.dues_call (.attempt d) d').symm
  by_cases hd : d' = d
  · rw [hd]
    refine (Bridge.sending_attempt hwired s.agenda.now d).awake ?_ _
    intro hscheduled
    contradiction
  · obtain ⟨hqueue, hasks⟩ := Bridge.other_attempt hwired s.agenda.now hd
    rw [hasks]
    exact hqueue ▸ hother d' hd

theorem Tended.call (h : s.Tended) (operation : Operation υ δ) : (s.call operation).Tended := by
  by_cases hattempt : ∃ d, operation = .attempt d
  · obtain ⟨d, rfl⟩ := hattempt
    exact .attempt h.wired fun d' _ => h.awake d'
  · refine ⟨h.wired.perform _ _, fun d => ?_⟩
    have hmoves := Bridge.moves_perform h.wired s.agenda.now (not_exists.1 hattempt) d
    exact ((h.awake d).move hmoves _).perm (s.dues_call operation d).symm

theorem Tended.next (h : s.Tended) : s.next.Tended := by
  rw [Host.next]
  split
  next => exact h
  next tick d agenda hpop =>
    refine Tended.attempt (s := { s with agenda }) h.wired fun d' hd => ?_
    rw [← Agenda.dues_of_pop_of_ne hpop fun heq => hd (HostEvent.send.inj heq).symm]
    exact h.awake d'
  next tick event agenda hpop =>
    refine ⟨h.wired, fun d => ?_⟩
    rw [← Agenda.dues_of_pop_of_ne hpop fun heq => nomatch heq]
    exact h.awake d

theorem Tended.act (h : s.Tended) (action : Action υ δ ε) : (s.act action).Tended := by
  cases action with
  | call operation => exact h.call operation
  | schedule event tick =>
    refine ⟨h.wired, fun d => (h.awake d).perm ?_⟩
    exact (s.agenda.dues_schedule (.other event) tick d).symm
  | next => exact h.next

/-! ### Attempts when they come due -/

/-- The invariant of a host that makes attempts only when they come due. -/
structure TendedOnce (s : Host υ δ ε) : Prop where
  wired : s.bridge.Wired
  awake : ∀ d, (s.bridge.queue d).AwakeOnce (s.agenda.dues d)

omit [Initiator υ] [Target δ] in
/-- When an attempt comes due, it is the last one scheduled for its direction, and it finds a head that
may leave. -/
theorem TendedOnce.due (h : s.TendedOnce) {tick : Tick} {d : Direction}
    {agenda : Agenda (HostEvent ε)} (hpop : s.agenda.pop? = some (tick, .send d, agenda)) :
    agenda.dues d = [] ∧ (s.bridge.queue d).awaitingRetry = false ∧
      ∃ head rest, (s.bridge.queue d).entries = head :: rest ∧ head.ready ≤ agenda.now := by
  have hawake := h.awake d
  rw [Agenda.dues_of_pop_send hpop, ← (Agenda.dues_of_pop hpop d).1] at hawake
  exact hawake.attempt

theorem TendedOnce.call (h : s.TendedOnce) {operation : Operation υ δ}
    (hattempt : ∀ d, operation ≠ .attempt d) : (s.call operation).TendedOnce := by
  refine ⟨h.wired.perform _ _, fun d => ?_⟩
  have hmoves := Bridge.moves_perform h.wired s.agenda.now hattempt d
  exact ((h.awake d).move hmoves).perm (s.dues_call operation d).symm

theorem TendedOnce.next (h : s.TendedOnce) : s.next.TendedOnce := by
  rw [Host.next]
  split
  next => exact h
  next tick d agenda hpop =>
    refine ⟨h.wired.perform _ _, fun d' => ?_⟩
    refine TransmitQueue.AwakeOnce.perm ?_ (Host.dues_call { s with agenda } (.attempt d) d').symm
    by_cases hd : d' = d
    · subst hd
      -- The event was the last of its direction, so the attempt alone schedules the next one.
      obtain ⟨hdues, hawaiting, head, rest, hentries, -⟩ := h.due hpop
      have hne : (s.bridge.queue d').entries ≠ [] := by
        rw [hentries]
        exact List.cons_ne_nil _ _
      rw [hdues, List.append_nil]
      exact (Bridge.sending_attempt h.wired agenda.now d').awakeOnce hne rfl hawaiting
    · obtain ⟨hqueue, hasks⟩ := Bridge.other_attempt h.wired agenda.now hd
      have hawake := h.awake d'
      rw [Agenda.dues_of_pop_of_ne hpop fun heq => hd (HostEvent.send.inj heq).symm, ← hqueue]
        at hawake
      rw [hasks]
      exact hawake
  next tick event agenda hpop =>
    refine ⟨h.wired, fun d => ?_⟩
    rw [← Agenda.dues_of_pop_of_ne hpop fun heq => nomatch heq]
    exact h.awake d

theorem TendedOnce.act (h : s.TendedOnce) {action : Action υ δ ε}
    (hattempt : ∀ d, action ≠ .call (.attempt d)) : (s.act action).TendedOnce := by
  cases action with
  | call operation => exact h.call fun d heq => hattempt d (congrArg Action.call heq)
  | schedule event tick =>
    refine ⟨h.wired, fun d => (h.awake d).perm ?_⟩
    exact (s.agenda.dues_schedule (.other event) tick d).symm
  | next => exact h.next

/-! ### Every sequence of actions -/

theorem Tended.after (h : s.Tended) (actions : List (Action υ δ ε)) : (s.after actions).Tended := by
  induction actions generalizing s with
  | nil => exact h
  | cons action rest ih => exact ih (h.act action)

theorem TendedOnce.after (h : s.TendedOnce) {actions : List (Action υ δ ε)}
    (hattempt : ∀ action ∈ actions, ∀ d, action ≠ .call (.attempt d)) :
    (s.after actions).TendedOnce := by
  induction actions generalizing s with
  | nil => exact h
  | cons action rest ih =>
    obtain ⟨hfirst, hrest⟩ := List.forall_mem_cons.1 hattempt
    exact ih (h.act hfirst) hrest

/-- No wake-up is lost: a queue with packets has an attempt scheduled or awaits the agent's retry. -/
def Woken (s : Host υ δ ε) : Prop :=
  ∀ d, (s.bridge.queue d).entries ≠ [] →
    0 < (s.agenda.dues d).length ∨ (s.bridge.queue d).awaitingRetry = true

/-- No wake-up is lost or made twice. -/
structure WokenOnce (s : Host υ δ ε) : Prop where
  /-- One attempt is scheduled if the queue knows of one, and none otherwise. -/
  count : ∀ d, (s.agenda.dues d).length = if (s.bridge.queue d).sendScheduled then 1 else 0
  /-- An empty queue waits for nothing. -/
  idle : ∀ d, (s.bridge.queue d).entries = [] →
    (s.bridge.queue d).sendScheduled = false ∧ (s.bridge.queue d).awaitingRetry = false
  /-- A queue with packets waits for an attempt or for the agent, and not for both. -/
  busy : ∀ d, (s.bridge.queue d).entries ≠ [] →
    (s.bridge.queue d).sendScheduled = !(s.bridge.queue d).awaitingRetry
  /-- An attempt that comes due finds a head that may leave and makes one offer, that of the head. -/
  due : ∀ tick d agenda, s.agenda.pop? = some (tick, .send d, agenda) →
    ∃ head rest taken, (s.bridge.queue d).entries = head :: rest ∧ head.ready ≤ agenda.now ∧
      Effect.offers (s.bridge.perform agenda.now (.attempt d)).effects = [(d, head.packet, taken)]

omit [Initiator υ] [Target δ] in
theorem Tended.woken (h : s.Tended) : s.Woken := by
  intro d hentries
  exact ((h.awake d).woken hentries).imp_left List.length_pos_iff.2

theorem TendedOnce.wokenOnce (h : s.TendedOnce) : s.WokenOnce := by
  refine ⟨fun d => (h.awake d).count, fun d => (h.awake d).idle, fun d => (h.awake d).busy, ?_⟩
  intro tick d agenda hpop
  obtain ⟨-, -, head, rest, hentries, hready⟩ := h.due hpop
  have hsending := Bridge.sending_attempt h.wired agenda.now d
  obtain ⟨taken, hoffers⟩ := hsending.offers_of_due hentries hready
  rw [show (s.bridge.queue d).attemptDue.direction = d from h.wired.direction d] at hoffers
  exact ⟨head, rest, taken, hentries, hready, hoffers⟩

/-- A host that starts with a bridge whose agents are bound and with an empty agenda loses no wake-up,
whatever it does; and it makes none twice if it makes attempts only when they come due. -/
theorem exists_woken {c : BridgeConfig} (name : String) (valid : c.validate = .ok ()) (initiator : υ)
    (target : δ) :
    ∃ b, Bridge.connected name c initiator target = .ok b ∧
      ∀ actions : List (Action υ δ ε),
        ((start b).after actions).Woken ∧
          ((∀ action ∈ actions, ∀ d, action ≠ .call (.attempt d)) →
            ((start b).after actions).WokenOnce) := by
  obtain ⟨b, hb, hfresh, hconnected⟩ := Bridge.exists_connected name valid initiator target
  have hwired : b.Wired := hfresh.wired hconnected
  refine ⟨b, hb, fun actions => ⟨?_, fun hattempt => ?_⟩⟩
  · have htended : (start b : Host υ δ ε).Tended := ⟨hwired, hfresh.awake⟩
    exact (htended.after actions).woken
  · have htended : (start b : Host υ δ ε).TendedOnce := ⟨hwired, hfresh.awakeOnce⟩
    exact (htended.after hattempt).wokenOnce

/-- A read is submitted, its attempt comes due, and the memory refuses it. -/
def refusedRead : List (Action Generator Memory Unit) :=
  [.call (.submit (.read 1 0 4 0)), .schedule () 5, .next]

theorem woken_refusedRead :
    ∃ b, Bridge.connected "narrow" Bridge.narrow ({} : Generator)
        ({ latency := 0, refuseEvery := 1 } : Memory) = .ok b ∧
      ((start b).after refusedRead).Woken ∧ ((start b).after refusedRead).WokenOnce ∧
      (((start b).after refusedRead).bridge.queue .request).awaitingRetry = true := by
  have valid : Bridge.narrow.validate = .ok () := rfl
  obtain ⟨b, hb, hwoken⟩ := exists_woken "narrow" valid ({} : Generator)
    ({ latency := 0, refuseEvery := 1 } : Memory)
  have hattempt : ∀ action ∈ refusedRead, ∀ d, action ≠ .call (.attempt d) := by
    intro action hmem d heq
    rw [heq] at hmem
    simp [refusedRead] at hmem
  obtain ⟨hlost, htwice⟩ := hwoken refusedRead
  refine ⟨b, hb, hlost, htwice hattempt, ?_⟩
  obtain rfl := Except.ok.inj hb
  rfl

end Host

end TimedBridge
