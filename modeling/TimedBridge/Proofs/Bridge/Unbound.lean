import TimedBridge.Proofs.Bridge.Credit

/-!
Sending on a bridge that lacks an agent. An attempt, or a retry, that fails for a missing agent does not
leave the bridge as it was (`Bridge.Loses`). If the agent that the packets go to is missing, the attempt
has come due already, and nothing will wake the packets that wait. If the initiator is missing while a
request leaves, the retry that it is owed is gone, and nobody will send it. There is no third way
(`exists_loses`).
-/

namespace TimedBridge

/-- The side that a direction leads to. -/
def Direction.receiver : Direction → Side
  | .request => .target
  | .response => .initiator

theorem Outcome.error_of_answering {σ ε α β : Type} {o : Outcome σ (Except ε α)} {f : α → β}
    {fault : ε} (h : (o.answering f).answer = .error fault) : o.answer = .error fault := by
  rw [answering] at h
  cases hanswer : o.answer with
  | error fault' =>
    rw [hanswer] at h
    have heq : Except.error fault' = (Except.error fault : Except ε β) := h
    cases heq
    rfl
  | ok a =>
    rw [hanswer] at h
    contradiction

namespace TransmitQueue

variable {q q' : TransmitQueue}

theorem Alike.awaitingRetry_eq (h : q.Alike q') : q'.awaitingRetry = q.awaitingRetry := by
  rw [h.shell]

end TransmitQueue

namespace Bridge

variable {υ δ : Type} {b : Bridge υ δ}

/-- The agent that a direction leads to is missing. -/
def LacksReceiver (b : Bridge υ δ) : Direction → Prop
  | .request => b.back.agent = none
  | .response => b.front.agent = none

/-! ### Retries that are awaited -/

/-- A queue awaits a retry only from an agent that is there. -/
structure Heard (b : Bridge υ δ) : Prop where
  requests : b.back.requests.awaitingRetry = true → b.back.agent.isSome = true
  responses : b.front.responses.awaitingRetry = true → b.front.agent.isSome = true

theorem Heard.not_awaiting (h : b.Heard) {d : Direction} (hlacks : b.LacksReceiver d) :
    (b.queue d).awaitingRetry = false := by
  rw [← Bool.not_eq_true]
  intro hawaiting
  cases d with
  | request =>
    have hagent := h.requests hawaiting
    rw [show b.back.agent = none from hlacks] at hagent
    contradiction
  | response =>
    have hagent := h.responses hawaiting
    rw [show b.front.agent = none from hlacks] at hagent
    contradiction

theorem Heard.setQueue (h : b.Heard) {q : TransmitQueue} {d : Direction}
    (hq : q.awaitingRetry = true → (b.queue d).awaitingRetry = true) : (b.setQueue q d).Heard := by
  cases d with
  | request => exact ⟨fun hawaiting => h.requests (hq hawaiting), h.responses⟩
  | response => exact ⟨h.requests, fun hawaiting => h.responses (hq hawaiting)⟩

theorem Fresh.heard {c : BridgeConfig} (h : b.Fresh c) : b.Heard := by
  refine ⟨fun hawaiting => ?_, fun hawaiting => ?_⟩
  · rw [h.requests] at hawaiting
    contradiction
  · rw [h.responses] at hawaiting
    contradiction

variable [Initiator υ]

theorem Heard.sendOwedRetry (h : b.Heard) : b.sendOwedRetry.state.Heard := by
  have hend := owedRetry_sendOwedRetry b
  generalize b.sendOwedRetry = called at hend ⊢
  cases hend with
  | none => exact h
  | lost => exact ⟨h.requests, h.responses⟩
  | sent => exact ⟨h.requests, fun _ => rfl⟩

theorem Heard.trySendResponse (h : b.Heard) (now : Tick) : (b.trySendResponse now).state.Heard := by
  have hend := responseSending_trySendResponse b now
  generalize b.trySendResponse now = called at hend ⊢
  cases hend with
  | unbound => exact h
  | empty => exact h
  | taken => exact Heard.sendOwedRetry ⟨h.requests, fun _ => rfl⟩
  | _ => exact ⟨h.requests, fun _ => rfl⟩

variable [Target δ]

theorem Heard.trySendRequest (h : b.Heard) (now : Tick) : (b.trySendRequest now).state.Heard := by
  have hend := requestSending_trySendRequest b now
  generalize b.trySendRequest now = called at hend ⊢
  cases hend with
  | unbound => exact h
  | empty => exact h
  | taken => exact Heard.sendOwedRetry ⟨fun _ => rfl, h.responses⟩
  | _ => exact ⟨fun _ => rfl, h.responses⟩

theorem Heard.trySend (h : b.Heard) (now : Tick) (d : Direction) : (b.trySend now d).state.Heard := by
  cases d with
  | request => exact h.trySendRequest now
  | response => exact h.trySendResponse now

omit [Initiator υ] in
theorem Heard.functional (h : b.Heard) (p : Packet) : (b.functional p).state.1.Heard := by
  have hend := functionalAccess_functional b p
  generalize b.functional p = called at hend ⊢
  cases hend with
  | alreadyTagged => exact h
  | byResponse htag hresponses =>
    have hfront := (TransmitQueue.alike_snoop hresponses).awaitingRetry_eq
    exact ⟨h.requests, fun hawaiting => h.responses (hfront ▸ hawaiting)⟩
  | byRequest htag hresponses hrequests =>
    have hfront := (TransmitQueue.alike_snoop hresponses).awaitingRetry_eq
    have hback := (TransmitQueue.alike_snoop hrequests).awaitingRetry_eq
    exact ⟨fun hawaiting => h.requests (hback ▸ hawaiting),
      fun hawaiting => h.responses (hfront ▸ hawaiting)⟩
  | unbound htag hresponses hrequests =>
    have hfront := (TransmitQueue.alike_snoop hresponses).awaitingRetry_eq
    have hback := (TransmitQueue.alike_snoop hrequests).awaitingRetry_eq
    exact ⟨fun hawaiting => h.requests (hback ▸ hawaiting),
      fun hawaiting => h.responses (hfront ▸ hawaiting)⟩
  | performed htag hresponses hrequests =>
    have hfront := (TransmitQueue.alike_snoop hresponses).awaitingRetry_eq
    exact ⟨fun _ => rfl, fun hawaiting => h.responses (hfront ▸ hawaiting)⟩

/-- Every call leaves a bridge that awaits retries only from agents that are there. -/
theorem Heard.perform (h : b.Heard) (now : Tick) (operation : Operation υ δ) :
    (b.perform now operation).state.Heard := by
  cases operation with
  | bindInitiator agent => exact ⟨h.requests, fun _ => rfl⟩
  | bindTarget agent => exact ⟨fun _ => rfl, h.responses⟩
  | start =>
    have hend := starting_start b
    simp only [Bridge.perform]
    generalize b.start = called at hend ⊢
    cases hend with
    | unbound => exact h
    | started => exact ⟨h.requests, fun _ => rfl⟩
  | submit p =>
    have hend := submission_submit b now p
    simp only [Bridge.perform]
    generalize b.submit now p = called at hend ⊢
    cases hend with
    | accepted hretry hroom =>
      have hpush : (b.pushRequest now p).state.awaitingRetry = b.back.requests.awaitingRetry :=
        TransmitQueue.awaitingRetry_push _ _ hroom.1
      exact ⟨fun hawaiting => h.requests (hpush ▸ hawaiting), h.responses⟩
    | _ => exact ⟨h.requests, h.responses⟩
  | respond p =>
    have hend := reception_respond b now p
    simp only [Bridge.perform]
    generalize b.respond now p = called at hend ⊢
    cases hend with
    | @queued route table htake hroom =>
      have hpush : (b.pushResponse now p route).state.awaitingRetry =
          b.front.responses.awaitingRetry := TransmitQueue.awaitingRetry_push _ _ hroom
      exact ⟨h.requests, fun hawaiting => h.responses (hpush ▸ hawaiting)⟩
    | _ => exact ⟨h.requests, h.responses⟩
  | attempt d =>
    have hdue : (b.setQueue (b.queue d).attemptDue d).Heard := h.setQueue id
    rw [perform_attempt]
    exact hdue.trySend now d
  | retry d =>
    have htaken : (b.setQueue { b.queue d with awaitingRetry := false } d).Heard :=
      h.setQueue (absurd · Bool.false_ne_true)
    rw [perform_retry]
    split
    · exact htaken.trySend now d
    · exact h
  | atomic p =>
    have hend := atomicAccess_atomic b p
    simp only [Bridge.perform]
    generalize b.atomic p = called at hend ⊢
    cases hend with
    | performed => exact ⟨fun _ => rfl, h.responses⟩
    | _ => exact h
  | functional p => exact h.functional p

/-! ### Calls that fail for a missing agent -/

/-- The bridge that no longer owes the initiator a retry. -/
def forgetRetry (b : Bridge υ δ) : Bridge υ δ := { b with front := { b.front with retry := .idle } }

/-- The queue of requests as it is when a call begins to send: an attempt has come due, or an owed retry
has been taken. -/
inductive Begins (b : Bridge υ δ) : Operation υ δ → TransmitQueue → Prop
  | attempt : Begins b (.attempt .request) b.back.requests.attemptDue
  | retry (hawaiting : b.back.requests.awaitingRetry = true) :
      Begins b (.retry .request) { b.back.requests with awaitingRetry := false }

/-- What a call loses that tries to send at `now` and fails for a missing agent. -/
inductive Loses (b : Bridge υ δ) (now : Tick) : Operation υ δ → Call υ δ Answer → Prop
  /-- The agent that the packets go to is missing. The attempt has come due, and those that wait are left
  with no attempt scheduled and no retry to wait for. -/
  | wakeUp {d : Direction} (hlacks : b.LacksReceiver d) (hawaiting : (b.queue d).awaitingRetry = false) :
      Loses b now (.attempt d)
        ⟨b.setQueue (b.queue d).attemptDue d, [], .error (.unconnected d.receiver)⟩
  /-- The initiator is missing. The target has taken the head, and the retry that was owed is gone. -/
  | notice {operation : Operation υ δ} {requests : TransmitQueue} {agent agent' : δ} {head : Deferred}
      {rest : List Deferred} (hbegins : b.Begins operation requests) (hinitiator : b.front.agent = none)
      (hretry : b.front.retry = .pending) (htarget : b.back.agent = some agent)
      (hentries : requests.entries = head :: rest) (hdue : head.ready ≤ now)
      (hoffer : Target.offerRequest agent head.packet = (agent', .accepted)) :
      Loses b now operation
        ⟨(b.setBack ({ requests with entries := rest }.armForHead now).state agent').forgetRetry,
          .offer requests.direction head.packet true ::
            ({ requests with entries := rest }.armForHead now).effects,
          .error (.unconnected .initiator)⟩

omit [Target δ] in
/-- Sending an owed retry fails only for want of an initiator, and after the retry has been forgotten. -/
theorem eq_of_unconnected_owedRetry {side : Side}
    (h : b.sendOwedRetry.answer = .error (.unconnected side)) :
    b.front.agent = none ∧ b.front.retry = .pending ∧
      b.sendOwedRetry = ⟨b.forgetRetry, [], .error (.unconnected .initiator)⟩ := by
  have hend := owedRetry_sendOwedRetry b
  generalize b.sendOwedRetry = called at hend h ⊢
  cases hend with
  | none => contradiction
  | lost hretry hagent => exact ⟨hagent, hretry, rfl⟩
  | sent => contradiction

omit [Target δ] in
/-- Sending responses fails for a missing agent only if the initiator is missing, and changes nothing. -/
theorem eq_of_unconnected_trySendResponse {now : Tick} {side : Side}
    (h : (b.trySendResponse now).answer = .error (.unconnected side)) :
    b.front.agent = none ∧ b.trySendResponse now = ⟨b, [], .error (.unconnected .initiator)⟩ := by
  have hend := responseSending_trySendResponse b now
  generalize b.trySendResponse now = called at hend h ⊢
  cases hend with
  | unbound hagent => exact ⟨hagent, rfl⟩
  | taken => exact nomatch (eq_of_unconnected_owedRetry h).1
  | _ => cases h

/-- Sending requests fails for a missing agent at once, or after the head has left. -/
theorem Heard.loses_request (h : b.Heard) {now : Tick} {operation : Operation υ δ}
    {requests : TransmitQueue} (hbegins : b.Begins operation requests) {side : Side}
    (hanswer : ((b.setQueue requests .request).trySendRequest now).answer =
      .error (.unconnected side)) :
    b.Loses now operation
      (((b.setQueue requests .request).trySendRequest now).answering fun () => .done) := by
  have hend := requestSending_trySendRequest (b.setQueue requests .request) now
  generalize (b.setQueue requests .request).trySendRequest now = called at hend hanswer ⊢
  cases hend with
  | unbound hagent =>
    have hquiet := h.not_awaiting (d := .request) hagent
    cases hbegins with
    | attempt => exact .wakeUp (d := .request) hagent hquiet
    | retry hawaiting => exact nomatch hawaiting.symm.trans hquiet
  | taken htarget hentries hdue hoffer =>
    obtain ⟨hinitiator, hretry, hcalled⟩ := eq_of_unconnected_owedRetry hanswer
    rw [hcalled, Outcome.after, List.append_nil]
    exact .notice hbegins hinitiator hretry htarget hentries hdue hoffer
  | _ => contradiction

/-- An attempt or a retry that fails for a missing agent loses a wake-up or a retry. -/
theorem Heard.loses (h : b.Heard) {now : Tick} {d : Direction} {operation : Operation υ δ}
    (hsends : operation = .attempt d ∨ operation = .retry d) {side : Side}
    (hanswer : (b.perform now operation).answer = .error (.unconnected side)) :
    b.Loses now operation (b.perform now operation) := by
  rcases hsends with rfl | rfl
  · rw [perform_attempt] at hanswer ⊢
    have hsent := Outcome.error_of_answering hanswer
    cases d with
    | request => exact h.loses_request .attempt hsent
    | response =>
      obtain ⟨hagent, hcalled⟩ := eq_of_unconnected_trySendResponse hsent
      rw [Bridge.trySend, hcalled]
      exact .wakeUp (d := .response) hagent (h.not_awaiting (d := .response) hagent)
  · rw [perform_retry] at hanswer ⊢
    by_cases hawaiting : (b.queue d).awaitingRetry = true
    · rw [if_pos hawaiting] at hanswer ⊢
      have hsent := Outcome.error_of_answering hanswer
      cases d with
      | request => exact h.loses_request (.retry hawaiting) hsent
      | response =>
        obtain ⟨hagent, -⟩ := eq_of_unconnected_trySendResponse hsent
        exact nomatch hawaiting.symm.trans (h.not_awaiting (d := .response) hagent)
    · rw [if_neg hawaiting] at hanswer
      cases hanswer

/-- However a run of a bridge of accepted settings goes, and whichever agents are bound by then, an attempt
or a retry that fails for a missing agent loses a wake-up or a retry, and nothing else. -/
theorem exists_loses {c : BridgeConfig} (name : String) (valid : c.validate = .ok ()) :
    ∃ b : Bridge υ δ, ofConfig name c = .ok b ∧ ∀ run now d operation side,
      operation = .attempt d ∨ operation = .retry d →
        ((b.after run).perform now operation).answer = .error (.unconnected side) →
          (b.after run).Loses now operation ((b.after run).perform now operation) := by
  obtain ⟨b, hb, hfresh⟩ := exists_ofConfig name valid
  refine ⟨b, hb, fun run now d operation side hsends hanswer => ?_⟩
  have hheard : (b.after run).Heard :=
    run_induction (P := fun _ b => b.Heard) hfresh.heard
      (fun _ _ now operation h => h.perform now operation) run
  exact hheard.loses hsends hanswer

/-- With no initiator bound, a read is let in, and a second one is refused. -/
def unheardReads : List (Tick × Operation Generator Memory) :=
  [(0, .bindTarget readyMemory), (0, .submit (.read 1 0 4 0)), (0, .submit (.read 2 0 4 0))]

theorem loses_unheardReads :
    ∃ b : Bridge Generator Memory, ofConfig "narrow" narrow = .ok b ∧
      ((b.after unheardReads).perform 1 (.attempt .request)).answer =
        .error (.unconnected .initiator) ∧
      (b.after unheardReads).Loses 1 (.attempt .request)
        ((b.after unheardReads).perform 1 (.attempt .request)) := by
  have valid : narrow.validate = .ok () := rfl
  obtain ⟨b, hb, hloses⟩ : ∃ b : Bridge Generator Memory, _ := exists_loses "narrow" valid
  have hanswer : ((b.after unheardReads).perform 1 (.attempt .request)).answer =
      .error (.unconnected .initiator) := by
    obtain rfl := Except.ok.inj hb
    rfl
  exact ⟨b, hb, hanswer, hloses unheardReads 1 .request _ _ (.inl rfl) hanswer⟩

/-- A call that fails for a missing agent does not always leave the bridge as it was: the first read has
left, and the second one is no longer owed a retry. -/
theorem not_unchanged_unheardReads :
    ¬ ∀ (name : String) (c : BridgeConfig), c.validate = .ok () →
      ∃ b : Bridge Generator Memory, ofConfig name c = .ok b ∧ ∀ run now d side,
        ((b.after run).perform now (.attempt d)).answer = .error (.unconnected side) →
          ((b.after run).perform now (.attempt d)).state = b.after run := by
  intro hunchanged
  obtain ⟨b, hb, hstate⟩ := hunchanged "narrow" narrow rfl
  obtain rfl := Except.ok.inj hb
  have hsame := hstate unheardReads 1 .request .initiator rfl
  have hretry := congrArg (fun b => b.front.retry) hsame
  contradiction

end Bridge

end TimedBridge
