import TimedBridge.Proofs.TransmitQueue.Wake
import TimedBridge.Proofs.Bridge.Binding

/-!
What the calls on a bridge do to its two queues. An attempt sends in one direction and leaves the other
alone (`sends_attempt`); any other call makes one move on each queue (`move_perform`). The effects of a
call ask for the attempts that the queues ask for, each in its own direction.
-/

namespace TimedBridge

/-! ### What a queue asks for -/

namespace TransmitQueue

variable {q : TransmitQueue} (now tick ready : Tick) (packet : Packet) (d : Direction)

theorem asksFor_arm :
    Effect.asksFor d (q.arm tick).effects = if q.direction = d then q.asks tick else [] := by
  rw [effects_arm, asks]
  by_cases h : q.direction = d
  · rw [if_pos h]
    split
    · rfl
    · simp [Effect.asksFor, Effect.asked, h]
  · rw [if_neg h]
    split
    · rfl
    · simp [Effect.asksFor, Effect.asked, h]

theorem asksFor_push (hroom : q.size < q.capacity) :
    Effect.asksFor d (q.push packet ready).effects =
      if q.direction = d then (if q.isEmpty then q.asks ready else []) else [] := by
  rw [push_of_room packet ready hroom]
  dsimp only
  cases q.isEmpty with
  | true => exact asksFor_arm ready d
  | false => exact (ite_self _).symm

theorem sending_early {head : Deferred} {rest : List Deferred} (hd : q.direction = d)
    (h : q.entries = head :: rest) (hearly : now < head.ready) :
    q.Sending now (Effect.asksFor d (q.arm head.ready).effects)
      (Effect.offers (q.arm head.ready).effects) (q.arm head.ready).state := by
  rw [asksFor_arm, if_pos hd, offers_arm, state_arm]
  exact .early h hearly

/-- The effects of a departure concern the queue's own direction. -/
theorem asksFor_departure {rest : List Deferred} (h : q.direction ≠ d) :
    Effect.asksFor d (.offer q.direction packet true ::
      ({ q with entries := rest }.armForHead now).effects) = [] := by
  change Effect.asksFor d ({ q with entries := rest }.armForHead now).effects = []
  rw [armForHead]
  split
  · rfl
  · rw [asksFor_arm, if_neg h]

/-- A departure is a way of sending. -/
theorem sending_departure {d : Direction} (hd : q.direction = d) {head : Deferred}
    {rest : List Deferred} (h : q.entries = head :: rest) :
    let armed := { q with entries := rest }.armForHead now
    let effects := .offer q.direction head.packet true :: armed.effects
    q.Sending now (Effect.asksFor d effects) (Effect.offers effects) armed.state := by
  intro armed effects
  have hoffers : Effect.offers effects = [(q.direction, head.packet, true)] :=
    congrArg ((q.direction, head.packet, true) :: ·) (offers_armForHead ..)
  rw [hoffers]
  cases rest with
  | nil => exact .last h
  | cons next rest =>
    have hasks : Effect.asksFor d effects = q.asks (max next.ready now) :=
      (asksFor_arm (q := { q with entries := next :: rest }) _ _).trans (if_pos hd)
    rw [hasks, show armed.state = _ from state_arm _ _]
    exact .taken h

end TransmitQueue

namespace Bridge

variable {υ δ : Type} {b : Bridge υ δ}

/-- Both agents are bound, and each queue is that of its direction. -/
structure Wired (b : Bridge υ δ) : Prop where
  connected : b.isConnected = true
  direction : ∀ d, (b.queue d).direction = d

theorem Wired.setQueue (h : b.Wired) {q : TransmitQueue} {d : Direction} (hq : q.direction = d) :
    (b.setQueue q d).Wired := by
  refine ⟨isConnected_setQueue h.connected q d, fun d' => ?_⟩
  by_cases hd' : d' = d
  · rw [hd', queue_setQueue, hq]
  · rw [queue_setQueue_of_ne _ _ hd', h.direction]

section Fresh

variable {c : BridgeConfig}

theorem Fresh.wired (h : b.Fresh c) (hconnected : b.isConnected = true) : b.Wired := by
  refine ⟨hconnected, fun d => ?_⟩
  obtain ⟨capacity, hqueue⟩ := h.queue_eq d
  rw [hqueue]

theorem Fresh.awake (h : b.Fresh c) (d : Direction) : (b.queue d).Awake [] := by
  obtain ⟨capacity, hqueue⟩ := h.queue_eq d
  rw [hqueue]
  refine ⟨?_, fun hne => absurd rfl hne⟩
  intro hscheduled
  contradiction

theorem Fresh.awakeOnce (h : b.Fresh c) (d : Direction) : (b.queue d).AwakeOnce [] := by
  obtain ⟨capacity, hqueue⟩ := h.queue_eq d
  rw [hqueue]
  exact ⟨rfl, fun _ => ⟨rfl, rfl⟩, fun hne => absurd rfl hne, fun _ hhead => nomatch hhead⟩

end Fresh

/-- A call that sends in one direction and leaves the other alone. -/
structure Sends {α : Type} (b : Bridge υ δ) (d : Direction) (now : Tick) (called : Call υ δ α) :
    Prop where
  sending : (b.queue d).Sending now (Effect.asksFor d called.effects) (Effect.offers called.effects)
    (called.state.queue d)
  other : ∀ d', d' ≠ d →
    called.state.queue d' = b.queue d' ∧ Effect.asksFor d' called.effects = []

section Sends

variable {α : Type} {now : Tick} {called : Call υ δ α}

theorem Sends.of_response
    (hsending : b.front.responses.Sending now (Effect.asksFor .response called.effects)
      (Effect.offers called.effects) called.state.front.responses)
    (hrequests : called.state.back.requests = b.back.requests)
    (hasks : Effect.asksFor .request called.effects = []) : b.Sends .response now called := by
  refine ⟨hsending, fun d' hd' => ?_⟩
  cases d' with
  | request => exact ⟨hrequests, hasks⟩
  | response => contradiction

theorem Sends.of_request
    (hsending : b.back.requests.Sending now (Effect.asksFor .request called.effects)
      (Effect.offers called.effects) called.state.back.requests)
    (hresponses : called.state.front.responses = b.front.responses)
    (hasks : Effect.asksFor .response called.effects = []) : b.Sends .request now called := by
  refine ⟨hsending, fun d' hd' => ?_⟩
  cases d' with
  | request => contradiction
  | response => exact ⟨hresponses, hasks⟩

end Sends

/-! ### Sending -/

variable [Initiator υ]

/-- Sending an owed retry concerns no queue. -/
theorem queue_sendOwedRetry (b : Bridge υ δ) (d : Direction) :
    b.sendOwedRetry.state.queue d = b.queue d := by
  have hend := owedRetry_sendOwedRetry b
  generalize b.sendOwedRetry = called at hend ⊢
  cases hend <;> cases d <;> rfl

theorem asksFor_sendOwedRetry (b : Bridge υ δ) (d : Direction) :
    Effect.asksFor d b.sendOwedRetry.effects = [] := by
  have hend := owedRetry_sendOwedRetry b
  generalize b.sendOwedRetry = called at hend ⊢
  cases hend <;> rfl

theorem offers_sendOwedRetry (b : Bridge υ δ) : Effect.offers b.sendOwedRetry.effects = [] := by
  have hend := owedRetry_sendOwedRetry b
  generalize b.sendOwedRetry = called at hend ⊢
  cases hend <;> rfl

/-- A call that sends may send the owed retry afterwards. -/
theorem Sends.sendOwedRetry {b' : Bridge υ δ} {d : Direction} {now : Tick} {effects : List Effect}
    (h : b.Sends d now ⟨b', effects, Except.ok ()⟩) :
    b.Sends d now (b'.sendOwedRetry.after effects) := by
  refine ⟨?_, fun d' hd' => ?_⟩
  · rw [Outcome.after, queue_sendOwedRetry, Effect.asksFor_append, asksFor_sendOwedRetry,
      Effect.offers_append, offers_sendOwedRetry, List.append_nil, List.append_nil]
    exact h.sending
  · rw [Outcome.after, queue_sendOwedRetry, Effect.asksFor_append, asksFor_sendOwedRetry,
      List.append_nil]
    exact h.other d' hd'

theorem sends_trySendResponse (h : b.Wired) (now : Tick) :
    b.Sends .response now (b.trySendResponse now) := by
  have hdirection : b.front.responses.direction = .response := h.direction .response
  have hother : b.front.responses.direction ≠ .request := by rw [hdirection]; decide
  have hbound := (isConnected_iff.1 h.connected).1
  have hend := responseSending_trySendResponse b now
  generalize b.trySendResponse now = called at hend ⊢
  cases hend with
  | unbound hagent =>
    rw [hagent] at hbound
    contradiction
  | empty hagent hentries => exact .of_response (.empty hentries) rfl rfl
  | early hagent hentries hearly =>
    exact .of_response (TransmitQueue.sending_early now _ hdirection hentries hearly) rfl
      ((TransmitQueue.asksFor_arm ..).trans (if_neg hother))
  | refused hagent hentries => exact .of_response (.refused _ hentries) rfl rfl
  | unreserved hagent hentries =>
    exact .of_response (TransmitQueue.sending_departure now hdirection hentries) rfl
      (TransmitQueue.asksFor_departure _ _ _ hother)
  | takenFull hagent hentries =>
    exact .of_response (TransmitQueue.sending_departure now hdirection hentries) rfl
      (TransmitQueue.asksFor_departure _ _ _ hother)
  | taken hagent hentries =>
    refine Sends.sendOwedRetry (.of_response ?_ rfl ?_)
    · exact TransmitQueue.sending_departure now hdirection hentries
    · exact TransmitQueue.asksFor_departure _ _ _ hother

variable [Target δ]

theorem sends_trySendRequest (h : b.Wired) (now : Tick) :
    b.Sends .request now (b.trySendRequest now) := by
  have hdirection : b.back.requests.direction = .request := h.direction .request
  have hother : b.back.requests.direction ≠ .response := by rw [hdirection]; decide
  have hbound := (isConnected_iff.1 h.connected).2
  have hend := requestSending_trySendRequest b now
  generalize b.trySendRequest now = called at hend ⊢
  cases hend with
  | unbound hagent =>
    rw [hagent] at hbound
    contradiction
  | empty hagent hentries => exact .of_request (.empty hentries) rfl rfl
  | early hagent hentries hearly =>
    exact .of_request (TransmitQueue.sending_early now _ hdirection hentries hearly) rfl
      ((TransmitQueue.asksFor_arm ..).trans (if_neg hother))
  | refused hagent hentries => exact .of_request (.refused _ hentries) rfl rfl
  | taken hagent hentries =>
    refine Sends.sendOwedRetry (.of_request ?_ rfl ?_)
    · exact TransmitQueue.sending_departure now hdirection hentries
    · exact TransmitQueue.asksFor_departure _ _ _ hother

theorem sends_trySend (h : b.Wired) (now : Tick) (d : Direction) :
    b.Sends d now (b.trySend now d) := by
  cases d with
  | request => exact sends_trySendRequest h now
  | response => exact sends_trySendResponse h now

/-! ### Attempts -/

/-- An attempt that has come due sends in its direction. -/
theorem sending_attempt (h : b.Wired) (now : Tick) (d : Direction) :
    (b.queue d).attemptDue.Sending now
      (Effect.asksFor d (b.perform now (.attempt d)).effects)
      (Effect.offers (b.perform now (.attempt d)).effects)
      ((b.perform now (.attempt d)).state.queue d) := by
  have hwired : (b.setQueue (b.queue d).attemptDue d).Wired := h.setQueue (h.direction d)
  have hsending := (sends_trySend hwired now d).sending
  rw [queue_setQueue] at hsending
  rw [perform_attempt]
  exact hsending

/-- An attempt leaves the other direction alone. -/
theorem other_attempt (h : b.Wired) (now : Tick) {d d' : Direction} (hd' : d' ≠ d) :
    (b.perform now (.attempt d)).state.queue d' = b.queue d' ∧
      Effect.asksFor d' (b.perform now (.attempt d)).effects = [] := by
  have hwired : (b.setQueue (b.queue d).attemptDue d).Wired := h.setQueue (h.direction d)
  have hother := (sends_trySend hwired now d).other d' hd'
  rw [queue_setQueue_of_ne _ _ hd'] at hother
  rw [perform_attempt]
  exact hother

/-! ### Other calls -/

/-- A call that makes one move on each queue. -/
def Moves (b : Bridge υ δ) (now : Tick) (operation : Operation υ δ) : Prop :=
  ∀ d, (b.queue d).Move now (Effect.asksFor d (b.perform now operation).effects)
    ((b.perform now operation).state.queue d)

theorem moves_submit (h : b.Wired) (now : Tick) (p : Packet) : b.Moves now (.submit p) := by
  intro d
  have hend := submission_submit b now p
  simp only [perform]
  generalize b.submit now p = called at hend ⊢
  cases hend with
  | accepted hretry hroom =>
    have hasks := TransmitQueue.asksFor_push (b.front.crossing.readyAt now)
      (b.front.crossing.charge { p with tag := some b.front.tag }) d hroom.1
    have hdirection : b.back.requests.direction = .request := h.direction .request
    simp only [Outcome.answering, pushRequest, hasks, hdirection]
    cases d with
    | request => exact .push _ _ hroom.1
    | response => exact .rest
  | _ => cases d <;> exact .rest

theorem moves_respond (h : b.Wired) (now : Tick) (p : Packet) : b.Moves now (.respond p) := by
  intro d
  have hend := reception_respond b now p
  simp only [perform]
  generalize b.respond now p = called at hend ⊢
  cases hend with
  | @queued route table htake hroom =>
    have hasks := TransmitQueue.asksFor_push (b.back.crossing.readyAt now)
      { b.back.crossing.charge p with destination := some route } d hroom
    have hdirection : b.front.responses.direction = .response := h.direction .response
    simp only [Outcome.answering, pushResponse, hasks, hdirection]
    cases d with
    | request => exact .rest
    | response => exact .push _ _ hroom
  | _ => cases d <;> exact .rest

theorem moves_retry (h : b.Wired) (now : Tick) (d : Direction) : b.Moves now (.retry d) := by
  intro d'
  have hwired : (b.setQueue { b.queue d with awaitingRetry := false } d).Wired :=
    h.setQueue (h.direction d)
  rw [perform_retry]
  split
  next hawaiting =>
    have hsends := sends_trySend hwired now d
    by_cases hd' : d' = d
    · have hsending := hsends.sending
      rw [queue_setQueue] at hsending
      rw [hd']
      exact .retry hawaiting hsending
    · obtain ⟨hqueue, hasks⟩ := hsends.other d' hd'
      rw [queue_setQueue_of_ne _ _ hd'] at hqueue
      simp only [Outcome.answering, hqueue, hasks]
      exact .rest
  next => exact .rest

theorem moves_functional (b : Bridge υ δ) (now : Tick) (p : Packet) :
    b.Moves now (.functional p) := by
  intro d
  have hend := functionalAccess_functional b p
  simp only [perform]
  generalize b.functional p = called at hend ⊢
  cases hend with
  | alreadyTagged => exact .rest
  | byResponse htag hresponses =>
    cases d with
    | request => exact .rest
    | response => exact .snoop (TransmitQueue.alike_snoop hresponses)
  | byRequest htag hresponses hrequests =>
    cases d with
    | request => exact .snoop (TransmitQueue.alike_snoop hrequests)
    | response => exact .snoop (TransmitQueue.alike_snoop hresponses)
  | unbound htag hresponses hrequests =>
    cases d with
    | request => exact .snoop (TransmitQueue.alike_snoop hrequests)
    | response => exact .snoop (TransmitQueue.alike_snoop hresponses)
  | performed htag hresponses hrequests =>
    cases d with
    | request => exact .snoop (TransmitQueue.alike_snoop hrequests)
    | response => exact .snoop (TransmitQueue.alike_snoop hresponses)

/-- A call that is no attempt makes one move on each queue. -/
theorem moves_perform (h : b.Wired) (now : Tick) {operation : Operation υ δ}
    (hattempt : ∀ d, operation ≠ .attempt d) : b.Moves now operation := by
  cases operation with
  | bindInitiator => intro d; cases d <;> exact .rest
  | bindTarget => intro d; cases d <;> exact .rest
  | start =>
    intro d
    have hend := starting_start b
    simp only [perform]
    generalize b.start = called at hend ⊢
    cases hend <;> cases d <;> exact .rest
  | submit p => exact moves_submit h now p
  | respond p => exact moves_respond h now p
  | attempt d => exact absurd rfl (hattempt d)
  | retry d => exact moves_retry h now d
  | atomic p =>
    intro d
    have hend := atomicAccess_atomic b p
    simp only [perform]
    generalize b.atomic p = called at hend ⊢
    cases hend <;> cases d <;> exact .rest
  | functional p => exact b.moves_functional now p

/-- Every call keeps the bridge wired. -/
theorem Wired.perform (h : b.Wired) (now : Tick) (operation : Operation υ δ) :
    (b.perform now operation).state.Wired := by
  refine ⟨isConnected_perform h.connected now operation, fun d => ?_⟩
  cases operation with
  | attempt d' =>
    by_cases hd : d = d'
    · subst hd
      exact (sending_attempt h now d).direction_eq.trans (h.direction d)
    · rw [(other_attempt h now hd).1]
      exact h.direction d
  | _ =>
    refine (moves_perform h now ?_ d).direction_eq.trans (h.direction d)
    intro d' heq
    contradiction

end Bridge

end TimedBridge
