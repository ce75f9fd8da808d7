import TimedBridge.Proofs.Bridge.Credit
import TimedBridge.Proofs.Bridge.Binding

/-!
Owed retries. An owed retry always has its reason, and something is on its way whose departure will
send it (`exists_retryComes`). Refusals and retries alternate: each refusal is followed by one retry
before the next, and each retry goes with the one departure that made room (`exists_retriesPaired`).
-/

namespace TimedBridge

/-! ### No retry is stranded -/

namespace Ledger

variable {l l' : Ledger} {posting : Posting} {forfeits : Nat}

/-- An owed retry has its reason: the request queue or the response slots are used up. -/
def Justified (l : Ledger) : Prop :=
  l.retry = .pending → l.requestSlots ≤ l.requests ∨ l.responseSlots ≤ l.reserved

/-- A posting keeps the reason: what frees a request slot settles the retry, and what frees a response
slot settles it unless the requests alone are reason enough. -/
theorem Justified.step (hj : l.Justified) (h : Posts posting l l') : l'.Justified := by
  intro hpending
  cases h with
  | quiet => exact hj hpending
  | refuse hretry hfull => exact hfull
  | forfeit hretry => exact absurd hpending (by rw [hretry]; decide)
  | enterSilent hretry => exact absurd hpending (by rw [hretry]; decide)
  | enterAnswered hretry => exact absurd hpending (by rw [hretry]; decide)
  | answer => exact hj hpending
  | overflow => exact hj hpending
  | requestLeaves => contradiction
  | responseLeaves =>
    -- Only the retry that the full request queue holds back is still owed.
    dsimp only at hpending ⊢
    split at hpending
    next hfull => exact .inl hfull
    next => contradiction
  | unreserved => exact hj hpending

/-- With the slots in balance, what an owed retry waits for is there. Forfeited slots alone cannot use
up the slots, since they are never all of them. -/
theorem Balanced.inFlight (hb : l.Balanced forfeits) (hslots : 0 < l.requestSlots)
    (hfull : l.requestSlots ≤ l.requests ∨ l.responseSlots ≤ l.reserved) :
    0 < l.requests ∨ 1 ≤ l.waiting + l.responses := by
  obtain ⟨-, -, hbalance, hforfeits⟩ := hb
  rcases hfull with hfull | hfull
  · exact .inl (Nat.lt_of_lt_of_le hslots hfull)
  · right
    omega

end Ledger

namespace Bridge

variable {υ δ : Type} {c : BridgeConfig} {b : Bridge υ δ}

/-- A retry that is owed will come: the condition that refused the request still holds, and something
is on its way whose departure sends the retry. -/
structure RetryComes (c : BridgeConfig) (b : Bridge υ δ) : Prop where
  full : b.back.requests.size = c.requestCapacity.toNat ∨ b.front.reserved = c.responseCapacity.toNat
  inFlight : 0 < b.back.requests.size ∨ 1 ≤ b.table.size + b.front.responses.size

theorem Credited.retryComes {log : List (Turn υ δ)} (hb : b.Credited c log)
    (hj : b.ledger.Justified) (valid : c.validate = .ok ()) (hpending : b.front.retry = .pending) :
    b.RetryComes c := by
  have hfull := hj hpending
  have hslots : 0 < b.ledger.requestSlots := hb.requestSlots ▸ (c.capacity_pos valid).1
  refine ⟨?_, hb.balanced.inFlight hslots hfull⟩
  obtain ⟨hrequests, hreserved⟩ := hb.creditSafe
  rw [hb.requestSlots, hb.responseSlots] at hfull
  rcases hfull with hfull | hfull
  · exact .inl (Nat.le_antisymm hrequests hfull)
  · exact .inr (Nat.le_antisymm hreserved hfull)

variable [Initiator υ] [Target δ]

theorem Fresh.justified_after (h : b.Fresh c) (run : List (Tick × Operation υ δ)) :
    (b.after run).ledger.Justified := by
  refine run_induction (P := fun _ b => b.ledger.Justified) ?_ ?_ run
  · intro hpending
    rw [h.ledger_eq] at hpending
    contradiction
  · intro _ b now operation hj
    exact hj.step (b.posts_turn now operation)

/-- In no run of a bridge whose agents are bound is an owed retry stranded. -/
theorem exists_retryComes (name : String) (valid : c.validate = .ok ()) (initiator : υ) (target : δ) :
    ∃ b, connected name c initiator target = .ok b ∧
      ∀ run, (b.after run).front.retry = .pending → (b.after run).RetryComes c := by
  obtain ⟨b, hb, hfresh, -⟩ := exists_connected name valid initiator target
  refine ⟨b, hb, fun run hpending => ?_⟩
  exact (hfresh.credited_after valid run).retryComes (hfresh.justified_after run) valid hpending

theorem retryComes_repeatedRead :
    ∃ b, connected "narrow" narrow ({} : Generator) readyMemory = .ok b ∧
      (b.after repeatedRead).front.retry = .pending ∧ (b.after repeatedRead).RetryComes narrow := by
  have valid : narrow.validate = .ok () := rfl
  obtain ⟨b, hb, hcomes⟩ := exists_retryComes "narrow" valid ({} : Generator) readyMemory
  have hpending : (b.after repeatedRead).front.retry = .pending := by
    obtain rfl := Except.ok.inj hb
    rfl
  exact ⟨b, hb, hpending, hcomes repeatedRead hpending⟩

end Bridge

/-! ### Refusals and retries -/

namespace Turn

variable {υ δ : Type}

/-- Whether the call is a submission that was handed back. -/
def isRefusal (turn : Turn υ δ) : Bool :=
  match turn.operation, turn.answer with
  | .submit _, .ok (.admission (.refused _)) => true
  | _, _ => false

/-- The number of submissions that were handed back. -/
def refusals (log : List (Turn υ δ)) : Nat := log.countP isRefusal

/-- The number of retries that the initiator was sent. -/
def retries (log : List (Turn υ δ)) : Nat := Effect.notifications (log.flatMap Turn.effects)

theorem refusals_cons (turn : Turn υ δ) (log : List (Turn υ δ)) :
    refusals (turn :: log) = refusals log + if turn.isRefusal then 1 else 0 :=
  List.countP_cons ..

theorem retries_cons (turn : Turn υ δ) (log : List (Turn υ δ)) :
    retries (turn :: log) = Effect.notifications turn.effects + retries log :=
  Effect.notifications_append ..

end Turn

/-- The number of retries that the initiator is owed. -/
def RetryState.owed : RetryState → Nat
  | .idle => 0
  | .pending => 1

theorem RetryState.owed_le_one (retry : RetryState) : retry.owed ≤ 1 := by
  cases retry <;> decide

theorem RetryState.eq_pending {retry : RetryState} (h : 0 < retry.owed) : retry = .pending := by
  cases retry with
  | idle => contradiction
  | pending => rfl

namespace Effect

/-- Effects between one retry state and the next: a retry is sent for each that is settled, and only
along with the one packet that was offered, which was taken. -/
structure Settles (before : RetryState) (effects : List Effect) (after : RetryState) : Prop where
  balance : notifications effects + after.owed = before.owed
  earned : .notifyRetry ∈ effects →
    ∃ direction packet, offers effects = [(direction, packet, true)]

variable {before after : RetryState} {effects : List Effect}

/-- Effects without a retry settle nothing. -/
theorem Settles.of_silent (h : notifications effects = 0) (retry : RetryState) :
    Settles retry effects retry :=
  ⟨by rw [h, Nat.zero_add], fun hmem => absurd hmem (List.count_eq_zero.1 h)⟩

theorem Settles.once (h : Settles before effects after) : notifications effects ≤ 1 :=
  Nat.le_trans (Nat.le_of_add_right_le (Nat.le_of_eq h.balance)) before.owed_le_one

end Effect

namespace Bridge

variable {υ δ : Type} {b : Bridge υ δ}

theorem retry_setQueue (b : Bridge υ δ) (q : TransmitQueue) (d : Direction) :
    (b.setQueue q d).front.retry = b.front.retry := by
  cases d <;> rfl

theorem submit_of_pending (h : b.front.retry = .pending) (now : Tick) (p : Packet) :
    b.submit now p = ⟨b, [], .error .requestDuringRetry⟩ := if_pos h

/-- A refusal hands back the packet that was submitted and does nothing but note that a retry is
owed. -/
theorem submit_of_refused {now : Tick} {p returned : Packet}
    (h : (b.submit now p).answer = .ok (.refused returned)) :
    b.submit now p = ⟨{ b with front := { b.front with retry := .pending } }, [], .ok (.refused p)⟩ ∧
      returned = p := by
  have hend := submission_submit b now p
  generalize b.submit now p = called at h hend ⊢
  cases hend with
  | refused => exact ⟨rfl, (Admission.refused.inj (Except.ok.inj h)).symm⟩
  | accepted => exact nomatch Except.ok.inj h
  | _ => contradiction

variable [Initiator υ]

/-- After a departure the owed retry is sent and settled. -/
theorem settles_sendOwedRetry (h : b.isConnected = true) (direction : Direction) (packet : Packet)
    {armed : List Effect} (hoffers : Effect.offers armed = [])
    (hsilent : Effect.notifications armed = 0) :
    Effect.Settles b.front.retry (.offer direction packet true :: armed ++ b.sendOwedRetry.effects)
      b.sendOwedRetry.state.front.retry := by
  have hend := owedRetry_sendOwedRetry b
  generalize b.sendOwedRetry = called at hend ⊢
  cases hend with
  | none hretry =>
    refine .of_silent ?_ _
    rw [List.append_nil]
    exact hsilent
  | lost hretry hagent =>
    have hbound := (isConnected_iff.1 h).1
    rw [hagent] at hbound
    contradiction
  | sent hretry hagent =>
    rw [hretry]
    refine ⟨?_, fun _ => ⟨direction, packet, ?_⟩⟩
    · rw [Effect.notifications_append]
      exact congrArg (· + 1) hsilent
    · rw [Effect.offers_append]
      exact congrArg ((direction, packet, true) :: · ++ []) hoffers

theorem settles_trySendResponse (h : b.isConnected = true) (now : Tick) :
    Effect.Settles b.front.retry (b.trySendResponse now).effects
      (b.trySendResponse now).state.front.retry := by
  have hend := responseSending_trySendResponse b now
  generalize b.trySendResponse now = called at hend ⊢
  cases hend with
  | unbound => exact .of_silent rfl _
  | empty => exact .of_silent rfl _
  | early => exact .of_silent (TransmitQueue.notifications_arm ..) _
  | refused => exact .of_silent rfl _
  | unreserved =>
    refine .of_silent ?_ _
    exact TransmitQueue.notifications_armForHead ..
  | takenFull =>
    refine .of_silent ?_ _
    exact TransmitQueue.notifications_armForHead ..
  | @taken agent agent' head rest reserved =>
    have hbound : ((b.setFront ({ b.front.responses with entries := rest }.armForHead now).state
        agent').releaseSlot reserved).isConnected = true :=
      isConnected_iff.2 ⟨rfl, (isConnected_iff.1 h).2⟩
    exact settles_sendOwedRetry hbound _ _ (TransmitQueue.offers_armForHead ..)
      (TransmitQueue.notifications_armForHead ..)

variable [Target δ]

theorem settles_trySendRequest (h : b.isConnected = true) (now : Tick) :
    Effect.Settles b.front.retry (b.trySendRequest now).effects
      (b.trySendRequest now).state.front.retry := by
  have hend := requestSending_trySendRequest b now
  generalize b.trySendRequest now = called at hend ⊢
  cases hend with
  | unbound => exact .of_silent rfl _
  | empty => exact .of_silent rfl _
  | early => exact .of_silent (TransmitQueue.notifications_arm ..) _
  | refused => exact .of_silent rfl _
  | taken =>
    exact settles_sendOwedRetry (isConnected_setBack h ..) _ _ (TransmitQueue.offers_armForHead ..)
      (TransmitQueue.notifications_armForHead ..)

theorem settles_trySend (h : b.isConnected = true) (now : Tick) (d : Direction) :
    Effect.Settles b.front.retry (b.trySend now d).effects (b.trySend now d).state.front.retry := by
  cases d with
  | request => exact settles_trySendRequest h now
  | response => exact settles_trySendResponse h now

/-- What one call of a run settles: a refusal makes the bridge owe one retry more. -/
structure SettlesTurn (b : Bridge υ δ) (now : Tick) (operation : Operation υ δ) : Prop where
  balance :
    Effect.notifications (b.turn now operation).effects +
        (b.perform now operation).state.front.retry.owed =
      b.front.retry.owed + if (b.turn now operation).isRefusal then 1 else 0
  once : Effect.notifications (b.turn now operation).effects ≤ 1
  earned : .notifyRetry ∈ (b.turn now operation).effects →
    ∃ direction packet,
      Effect.offers (b.turn now operation).effects = [(direction, packet, true)]

theorem SettlesTurn.of_settles {now : Tick} {operation : Operation υ δ}
    (h : Effect.Settles b.front.retry (b.perform now operation).effects
      (b.perform now operation).state.front.retry)
    (hrefusal : (b.turn now operation).isRefusal = false) : b.SettlesTurn now operation := by
  refine ⟨?_, h.once, h.earned⟩
  rw [hrefusal]
  exact h.balance

theorem settlesTurn_submit (b : Bridge υ δ) (now : Tick) (p : Packet) :
    b.SettlesTurn now (.submit p) := by
  have hend := submission_submit b now p
  generalize hcalled : b.submit now p = called at hend
  have hperform : b.perform now (.submit p) = called.answering .admission := by
    rw [← hcalled]; rfl
  cases hend with
  | refused hretry hroom =>
    refine ⟨?_, ?_, fun hmem => ?_⟩
    · rw [turn, hperform, hretry]; rfl
    · rw [turn, hperform]; exact Nat.zero_le 1
    · rw [turn, hperform] at hmem; exact absurd hmem List.not_mem_nil
  | accepted =>
    refine .of_settles ?_ (by rw [turn, hperform]; rfl)
    rw [hperform]
    exact .of_silent (TransmitQueue.notifications_push ..) _
  | _ =>
    refine .of_settles ?_ (by rw [turn, hperform]; rfl)
    rw [hperform]
    exact .of_silent rfl _

/-- Every call on a bridge with bound agents keeps the account of refusals and retries. -/
theorem settlesTurn (h : b.isConnected = true) (now : Tick) (operation : Operation υ δ) :
    b.SettlesTurn now operation := by
  cases operation with
  | submit p => exact b.settlesTurn_submit now p
  | bindInitiator => exact .of_settles (.of_silent rfl _) rfl
  | bindTarget => exact .of_settles (.of_silent rfl _) rfl
  | start =>
    refine .of_settles ?_ rfl
    have hend := starting_start b
    simp only [perform]
    generalize b.start = called at hend ⊢
    cases hend <;> exact .of_silent rfl _
  | respond p =>
    refine .of_settles ?_ rfl
    have hend := reception_respond b now p
    simp only [perform]
    generalize b.respond now p = called at hend ⊢
    cases hend with
    | unknown => exact .of_silent rfl _
    | overflow => exact .of_silent rfl _
    | queued => exact .of_silent (TransmitQueue.notifications_push ..) _
  | attempt d =>
    refine .of_settles ?_ rfl
    have hsettles := settles_trySend (isConnected_setQueue h (b.queue d).attemptDue d) now d
    rw [retry_setQueue] at hsettles
    rw [perform_attempt]
    exact hsettles
  | retry d =>
    refine .of_settles ?_ rfl
    have hsettles := settles_trySend
      (isConnected_setQueue h { b.queue d with awaitingRetry := false } d) now d
    rw [retry_setQueue] at hsettles
    rw [perform_retry]
    split
    · exact hsettles
    · exact .of_silent rfl _
  | atomic p =>
    refine .of_settles ?_ rfl
    have hend := atomicAccess_atomic b p
    simp only [perform]
    generalize b.atomic p = called at hend ⊢
    cases hend <;> exact .of_silent rfl _
  | functional p =>
    refine .of_settles ?_ rfl
    have hend := functionalAccess_functional b p
    simp only [perform]
    generalize b.functional p = called at hend ⊢
    cases hend <;> exact .of_silent rfl _

/-! ### Refusals and retries of a run -/

theorem isConnected_after (h : b.isConnected = true) (run : List (Tick × Operation υ δ)) :
    (b.after run).isConnected = true :=
  run_induction (P := fun _ b => b.isConnected = true) h
    (fun _ _ now operation hb => isConnected_perform hb now operation) run

/-- The retries that are sent or still owed are those for the refusals, and the one owed at the
start. -/
theorem balance_run (h : b.isConnected = true) (run : List (Tick × Operation υ δ)) :
    Turn.retries (b.record run) + (b.after run).front.retry.owed =
      b.front.retry.owed + Turn.refusals (b.record run) := by
  induction run generalizing b with
  | nil => exact Nat.add_comm ..
  | cons call run ih =>
    have hturn := (settlesTurn h call.1 call.2).balance
    have hrun := ih (isConnected_perform h call.1 call.2)
    rw [record, after, Turn.retries_cons, Turn.refusals_cons]
    omega

/-- While no retry is sent, an owed one stays owed. -/
theorem pending_after (h : b.isConnected = true) (hpending : b.front.retry = .pending)
    {run : List (Tick × Operation υ δ)} (hsilent : Turn.retries (b.record run) = 0) :
    (b.after run).front.retry = .pending := by
  have hbalance := balance_run h run
  rw [hsilent, hpending] at hbalance
  have hone : RetryState.pending.owed = 1 := rfl
  exact RetryState.eq_pending (by omega)

/-- How the refusals and the retries of a run from `b` pair. -/
structure RetriesPaired (b : Bridge υ δ) (run : List (Tick × Operation υ δ)) : Prop where
  /-- Each refusal has its retry, but the last one when that is still owed. -/
  paired : Turn.refusals (b.record run) =
    Turn.retries (b.record run) + (b.after run).front.retry.owed
  /-- Between a refusal and its retry every submission is a fault that changes nothing. -/
  closed : ∀ before now p returned between, run = before ++ (now, .submit p) :: between →
    ((b.after before).submit now p).answer = .ok (.refused returned) →
    Turn.retries (((b.after before).perform now (.submit p)).state.record between) = 0 →
    ∀ later next, (b.after run).submit later next = ⟨b.after run, [], .error .requestDuringRetry⟩
  /-- No call sends two retries. -/
  once : ∀ turn ∈ b.record run, Effect.notifications turn.effects ≤ 1
  /-- A retry is sent by a call that offers one packet, which is taken. -/
  earned : ∀ turn ∈ b.record run, .notifyRetry ∈ turn.effects →
    ∃ direction packet, Effect.offers turn.effects = [(direction, packet, true)]
  /-- What is handed back is the packet that was submitted, and nothing is reserved or scheduled. -/
  unchanged : ∀ now p returned, ((b.after run).submit now p).answer = .ok (.refused returned) →
    returned = p ∧ ((b.after run).submit now p).effects = [] ∧
      ((b.after run).submit now p).state =
        { b.after run with front := { (b.after run).front with retry := .pending } }

/-- In every run of a bridge whose agents are bound, refusals and retries pair. -/
theorem exists_retriesPaired {c : BridgeConfig} (name : String) (valid : c.validate = .ok ())
    (initiator : υ) (target : δ) :
    ∃ b, connected name c initiator target = .ok b ∧ ∀ run, b.RetriesPaired run := by
  obtain ⟨b, hb, hfresh, hbound⟩ := exists_connected name valid initiator target
  refine ⟨b, hb, fun run => ⟨?_, ?_, ?_, ?_, ?_⟩⟩
  · have hbalance := balance_run hbound run
    rw [hfresh.retry, RetryState.owed, Nat.zero_add] at hbalance
    exact hbalance.symm
  · intro before now p returned between hrun hrefused hsilent later next
    subst hrun
    obtain ⟨hsubmit, -⟩ := submit_of_refused hrefused
    -- From the refusal on the bridge owes a retry, and no call of the run has sent it.
    have hpending : ((b.after before).perform now (.submit p)).state.front.retry = .pending := by
      simp only [perform, hsubmit]
      rfl
    have hbefore := isConnected_perform (isConnected_after hbound before) now (.submit p)
    rw [after_append]
    exact submit_of_pending (pending_after hbefore hpending hsilent) later next
  · intro turn hturn
    obtain ⟨before, now, operation, rfl⟩ := exists_of_mem_record hturn
    exact (settlesTurn (isConnected_after hbound before) now operation).once
  · intro turn hturn
    obtain ⟨before, now, operation, rfl⟩ := exists_of_mem_record hturn
    exact (settlesTurn (isConnected_after hbound before) now operation).earned
  · intro now p returned hrefused
    obtain ⟨hsubmit, rfl⟩ := submit_of_refused hrefused
    rw [hsubmit]
    exact ⟨rfl, rfl, rfl⟩

/-- The repeated read is answered, and its departure makes room for the request that was refused. -/
def answeredRead : List (Tick × Operation Generator Memory) :=
  repeatedRead ++ [(3, .respond (Packet.read 1 0 4 0).respond), (4, .attempt .response)]

theorem retriesPaired_answeredRead :
    ∃ b, connected "narrow" narrow ({} : Generator) readyMemory = .ok b ∧
      b.RetriesPaired answeredRead ∧ Turn.refusals (b.record answeredRead) = 1 ∧
      Turn.retries (b.record answeredRead) = 1 := by
  have valid : narrow.validate = .ok () := rfl
  obtain ⟨b, hb, hpaired⟩ := exists_retriesPaired "narrow" valid ({} : Generator) readyMemory
  refine ⟨b, hb, hpaired answeredRead, ?_⟩
  obtain rfl := Except.ok.inj hb
  exact ⟨rfl, rfl⟩

end Bridge

end TimedBridge
