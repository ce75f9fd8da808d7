import TimedBridge.Proofs.Bridge.History
import TimedBridge.Proofs.Bridge.TimedCalls
import TimedBridge.Proofs.Bridge.UntimedCalls

/-!
A bridge whose two agents are bound keeps two agents. A call may put an agent into another state, and
binding may put another agent in its place, but nothing takes an agent away.
-/

namespace TimedBridge

namespace Bridge

variable {υ δ : Type} {b : Bridge υ δ}

theorem isConnected_iff :
    b.isConnected = true ↔ b.front.agent.isSome = true ∧ b.back.agent.isSome = true :=
  Bool.and_eq_true_iff

theorem isConnected_setQueue (h : b.isConnected = true) (q : TransmitQueue) (d : Direction) :
    (b.setQueue q d).isConnected = true := by
  cases d <;> exact h

theorem isConnected_setFront (h : b.isConnected = true) (responses : TransmitQueue) (agent : υ) :
    (b.setFront responses agent).isConnected = true :=
  isConnected_iff.2 ⟨rfl, (isConnected_iff.1 h).2⟩

theorem isConnected_setBack (h : b.isConnected = true) (requests : TransmitQueue) (agent : δ) :
    (b.setBack requests agent).isConnected = true :=
  isConnected_iff.2 ⟨(isConnected_iff.1 h).1, rfl⟩

variable [Initiator υ]

theorem isConnected_sendOwedRetry (h : b.isConnected = true) :
    b.sendOwedRetry.state.isConnected = true := by
  have hend := owedRetry_sendOwedRetry b
  generalize b.sendOwedRetry = called at hend ⊢
  cases hend with
  | none => exact h
  | lost => exact h
  | sent => exact isConnected_iff.2 ⟨rfl, (isConnected_iff.1 h).2⟩

theorem isConnected_trySendResponse (h : b.isConnected = true) (now : Tick) :
    (b.trySendResponse now).state.isConnected = true := by
  have hend := responseSending_trySendResponse b now
  generalize b.trySendResponse now = called at hend ⊢
  cases hend with
  | unbound => exact h
  | empty => exact h
  | early => exact isConnected_setFront h ..
  | refused => exact isConnected_setFront h ..
  | unreserved => exact isConnected_setFront h ..
  | takenFull => exact isConnected_iff.2 ⟨rfl, (isConnected_iff.1 h).2⟩
  | taken => exact isConnected_sendOwedRetry (isConnected_iff.2 ⟨rfl, (isConnected_iff.1 h).2⟩)

variable [Target δ]

theorem isConnected_trySendRequest (h : b.isConnected = true) (now : Tick) :
    (b.trySendRequest now).state.isConnected = true := by
  have hend := requestSending_trySendRequest b now
  generalize b.trySendRequest now = called at hend ⊢
  cases hend with
  | unbound => exact h
  | empty => exact h
  | early => exact isConnected_setBack h ..
  | refused => exact isConnected_setBack h ..
  | taken => exact isConnected_sendOwedRetry (isConnected_setBack h ..)

theorem isConnected_trySend (h : b.isConnected = true) (now : Tick) (d : Direction) :
    (b.trySend now d).state.isConnected = true := by
  cases d with
  | request => exact isConnected_trySendRequest h now
  | response => exact isConnected_trySendResponse h now

/-- No call takes an agent away. -/
theorem isConnected_perform (h : b.isConnected = true) (now : Tick) (operation : Operation υ δ) :
    (b.perform now operation).state.isConnected = true := by
  cases operation with
  | bindInitiator => exact isConnected_iff.2 ⟨rfl, (isConnected_iff.1 h).2⟩
  | bindTarget => exact isConnected_iff.2 ⟨(isConnected_iff.1 h).1, rfl⟩
  | start =>
    have hend := starting_start b
    simp only [perform]
    generalize b.start = called at hend ⊢
    cases hend with
    | unbound => exact h
    | started => exact isConnected_iff.2 ⟨rfl, (isConnected_iff.1 h).2⟩
  | submit p =>
    have hend := submission_submit b now p
    simp only [perform]
    generalize b.submit now p = called at hend ⊢
    cases hend <;> exact h
  | respond p =>
    have hend := reception_respond b now p
    simp only [perform]
    generalize b.respond now p = called at hend ⊢
    cases hend <;> exact h
  | attempt d =>
    rw [perform_attempt]
    exact isConnected_trySend (isConnected_setQueue h _ d) now d
  | retry d =>
    rw [perform_retry]
    split
    · exact isConnected_trySend (isConnected_setQueue h _ d) now d
    · exact h
  | atomic p =>
    have hend := atomicAccess_atomic b p
    simp only [perform]
    generalize b.atomic p = called at hend ⊢
    cases hend with
    | alreadyTagged => exact h
    | unbound => exact h
    | performed => exact isConnected_iff.2 ⟨(isConnected_iff.1 h).1, rfl⟩
  | functional p =>
    have hend := functionalAccess_functional b p
    simp only [perform]
    generalize b.functional p = called at hend ⊢
    cases hend with
    | performed => exact isConnected_iff.2 ⟨(isConnected_iff.1 h).1, rfl⟩
    | _ => exact h

end Bridge

end TimedBridge
