import TimedBridge.Bridge.Timed
import TimedBridge.Proofs.TransmitQueue.Calls

/-!
What each timed call on a bridge can come to. A submission has five ends (`Submission`), a response
three (`Reception`), sending an owed retry three (`OwedRetry`), and an attempt to send requests or
responses five or seven (`RequestSending`, `ResponseSending`). Each end gives the state, the effects
and the answer in full, with the condition under which the call comes to it.
-/

namespace TimedBridge

/-! ### Charging a packet -/

namespace Crossing

variable (c : Crossing) (p : Packet)

theorem id_charge : (c.charge p).id = p.id := by
  unfold charge Hints.charge; split <;> rfl

theorem source_charge : (c.charge p).source = p.source := by
  unfold charge Hints.charge; split <;> rfl

theorem expectsResponse_charge : (c.charge p).expectsResponse = p.expectsResponse := by
  unfold charge Hints.charge; split <;> rfl

end Crossing

namespace Bridge

variable {υ δ : Type}

/-! ### Entering the queues -/

/-- There is room for a request: in the queue and, when it will be answered, for its response. -/
def HasRoom (b : Bridge υ δ) (p : Packet) : Prop :=
  b.back.requests.size < b.back.requests.capacity ∧
    (p.expectsResponse = true → b.front.reserved < b.front.responses.capacity)

/-- The queue of requests, and what it asks for, when a request is let in at `now`. -/
def pushRequest (b : Bridge υ δ) (now : Tick) (p : Packet) :
    Outcome TransmitQueue (Except BridgeFault Unit) :=
  b.back.requests.push (b.front.crossing.charge { p with tag := some b.front.tag })
    (b.front.crossing.readyAt now)

/-- The queue of responses, and what it asks for, when a response comes at `now`. -/
def pushResponse (b : Bridge υ δ) (now : Tick) (p : Packet) (route : Route) :
    Outcome TransmitQueue (Except BridgeFault Unit) :=
  b.front.responses.push { b.back.crossing.charge p with destination := some route }
    (b.back.crossing.readyAt now)

/-- The ends that a submission can come to. -/
inductive Submission (b : Bridge υ δ) (now : Tick) (p : Packet) : Call υ δ Admission → Prop
  /-- The initiator is still owed a retry. -/
  | early (hretry : b.front.retry = .pending) :
      Submission b now p ⟨b, [], .error .requestDuringRetry⟩
  /-- There is no room. -/
  | refused (hretry : b.front.retry = .idle) (hroom : ¬ b.HasRoom p) :
      Submission b now p
        ⟨{ b with front := { b.front with retry := .pending } }, [], .ok (.refused p)⟩
  | alreadyTagged (hretry : b.front.retry = .idle) (hroom : b.HasRoom p) {existing : TrafficTag}
      (htag : p.tag = some existing) :
      Submission b now p ⟨b, [], .error (.alreadyTagged p.id existing)⟩
  /-- The identity is waiting already; the slot stays reserved. -/
  | duplicate (hretry : b.front.retry = .idle) (hroom : b.HasRoom p) (htag : p.tag = none)
      (hexpects : p.expectsResponse = true) (hwaiting : b.table.contains p.id = true) :
      Submission b now p
        ⟨{ b with front := { b.front with reserved := b.front.reserved + 1 } }, [],
          .error (.duplicateRequest p.id)⟩
  | accepted (hretry : b.front.retry = .idle) (hroom : b.HasRoom p) (htag : p.tag = none)
      {table : RequestTable}
      (hsave : (if p.expectsResponse then b.table.save p.id p.source else .ok b.table) = .ok table) :
      Submission b now p
        ⟨{ b with
            front := { b.front with
              reserved := if p.expectsResponse then b.front.reserved + 1 else b.front.reserved }
            back := { b.back with requests := (b.pushRequest now p).state }
            table },
          (b.pushRequest now p).effects, .ok .accepted⟩

theorem hasRoom_iff (b : Bridge υ δ) (p : Packet) :
    b.HasRoom p ↔ ¬ (b.back.requests.isFull || p.expectsResponse && b.front.slotsFull) = true := by
  rw [HasRoom, Bool.or_eq_true, Bool.and_eq_true, TransmitQueue.isFull_iff, Front.slotsFull,
    decide_eq_true_iff, not_or, not_and, Nat.not_le, Nat.not_le]

theorem queueRequest_of_saved {b : Bridge υ δ} {p : Packet} (ready : Tick) (table : RequestTable)
    (hroom : b.back.requests.size < b.back.requests.capacity)
    (hsave : (if p.expectsResponse then b.table.save p.id p.source else .ok b.table) = .ok table) :
    b.queueRequest p ready =
      ⟨{ b with back := { b.back with requests := (b.back.requests.push p ready).state }, table },
        (b.back.requests.push p ready).effects, .ok ()⟩ := by
  rw [queueRequest, hsave]
  simp only [TransmitQueue.push_of_room p ready hroom]

theorem queueRequest_of_waiting {b : Bridge υ δ} {p : Packet} (ready : Tick)
    (hexpects : p.expectsResponse = true) (hwaiting : b.table.contains p.id = true) :
    b.queueRequest p ready = ⟨b, [], .error (.duplicateRequest p.id)⟩ := by
  rw [queueRequest, if_pos hexpects, RequestTable.save, dif_pos hwaiting]

/-- Either the route back is saved, if one is needed, or the identity is waiting. -/
theorem saved_or_waiting (table : RequestTable) (p : Packet) :
    (∃ saved, (if p.expectsResponse then table.save p.id p.source else .ok table) = .ok saved) ∨
      p.expectsResponse = true ∧ table.contains p.id = true := by
  cases hexpects : p.expectsResponse with
  | false => exact .inl ⟨table, rfl⟩
  | true =>
    cases hwaiting : table.contains p.id with
    | true => exact .inr ⟨rfl, rfl⟩
    | false => exact .inl ⟨_, by rw [if_pos rfl, RequestTable.save, dif_neg (by simp [hwaiting])]⟩

theorem submission_submit (b : Bridge υ δ) (now : Tick) (p : Packet) :
    Submission b now p (b.submit now p) := by
  rw [submit]
  cases hretry : b.front.retry with
  | pending => exact .early hretry
  | idle =>
    rw [if_neg (by decide)]
    by_cases hroom : b.HasRoom p
    · rw [if_neg ((hasRoom_iff b p).1 hroom)]
      cases htag : p.tag with
      | some existing =>
        simp only [Packet.withTag, htag]
        exact .alreadyTagged hretry hroom htag
      | none =>
        simp only [Packet.withTag, htag]
        rcases saved_or_waiting b.table p with ⟨table, hsave⟩ | ⟨hexpects, hwaiting⟩
        · rw [queueRequest_of_saved _ table]
          · exact .accepted hretry hroom htag hsave
          · exact hroom.1
          · rwa [Crossing.expectsResponse_charge, Crossing.id_charge, Crossing.source_charge]
        · rw [queueRequest_of_waiting, Crossing.id_charge]
          · change Submission b now p
              ⟨{ b with front := { b.front with
                reserved := if p.expectsResponse then b.front.reserved + 1 else b.front.reserved } },
                [], .error (.duplicateRequest p.id)⟩
            rw [if_pos hexpects]
            exact .duplicate hretry hroom htag hexpects hwaiting
          · rwa [Crossing.expectsResponse_charge]
          · rwa [Crossing.id_charge]
    · rw [if_pos (Decidable.not_not.1 (mt (hasRoom_iff b p).2 hroom))]
      exact .refused hretry hroom

/-- The ends that a response can come to. -/
inductive Reception (b : Bridge υ δ) (now : Tick) (p : Packet) : Call υ δ Unit → Prop
  /-- No request is waiting for it. -/
  | unknown (hroute : b.table.route? p.id = none) :
      Reception b now p ⟨b, [], .error (.missingRequest p.id)⟩
  /-- The queue is full; the request is no longer waiting. -/
  | overflow {route : Route} {table : RequestTable} (htake : b.table.take p.id = .ok (route, table))
      (hfull : b.front.responses.capacity ≤ b.front.responses.size) :
      Reception b now p
        ⟨{ b with table }, [],
          .error (.queueOverflow b.front.responses.direction b.front.responses.capacity)⟩
  | queued {route : Route} {table : RequestTable} (htake : b.table.take p.id = .ok (route, table))
      (hroom : b.front.responses.size < b.front.responses.capacity) :
      Reception b now p
        ⟨{ b with
            front := { b.front with responses := (b.pushResponse now p route).state }
            table },
          (b.pushResponse now p route).effects, .ok ()⟩

theorem reception_respond (b : Bridge υ δ) (now : Tick) (p : Packet) :
    Reception b now p (b.respond now p) := by
  have hid : b.table.take (b.back.crossing.charge p).id = b.table.take p.id := by
    rw [Crossing.id_charge]
  rw [respond, queueResponse, hid]
  cases hroute : b.table.route? p.id with
  | none =>
    rw [RequestTable.take, hroute]
    exact .unknown hroute
  | some route =>
    obtain ⟨table, htake⟩ : ∃ table, b.table.take p.id = .ok (route, table) :=
      ⟨_, by rw [RequestTable.take, hroute]⟩
    simp only [htake]
    by_cases hroom : b.front.responses.size < b.front.responses.capacity
    · have hanswer : (b.pushResponse now p route).answer = .ok () := by
        rw [pushResponse, TransmitQueue.push_of_room _ _ hroom]
      have hend : Reception b now p _ := .queued htake hroom
      rwa [← hanswer] at hend
    · rw [TransmitQueue.push_of_full _ _ (Nat.not_lt.1 hroom)]
      exact .overflow htake (Nat.not_lt.1 hroom)

/-! ### Leaving the queues -/

/-- The bridge with another queue of requests and another target. -/
def setBack (b : Bridge υ δ) (requests : TransmitQueue) (agent : δ) : Bridge υ δ :=
  { b with back := { b.back with requests, agent := some agent } }

/-- The bridge with another queue of responses and another initiator. -/
def setFront (b : Bridge υ δ) (responses : TransmitQueue) (agent : υ) : Bridge υ δ :=
  { b with front := { b.front with responses, agent := some agent } }

theorem setBack_self {b : Bridge υ δ} {agent : δ} (h : b.back.agent = some agent) :
    b.setBack b.back.requests agent = b := by
  rw [setBack, ← h]

theorem setFront_self {b : Bridge υ δ} {agent : υ} (h : b.front.agent = some agent) :
    b.setFront b.front.responses agent = b := by
  rw [setFront, ← h]

/-- The bridge after the departure of a response has freed its slot. -/
def releaseSlot (b : Bridge υ δ) (reserved : Nat) : Bridge υ δ :=
  { b with front := { b.front with reserved } }

variable [Initiator υ]

/-- The ends that sending an owed retry can come to. -/
inductive OwedRetry (b : Bridge υ δ) : Call υ δ Unit → Prop
  /-- None is owed. -/
  | none (hretry : b.front.retry = .idle) : OwedRetry b ⟨b, [], .ok ()⟩
  /-- There is no initiator to send it to. -/
  | lost (hretry : b.front.retry = .pending) (hagent : b.front.agent = .none) :
      OwedRetry b
        ⟨{ b with front := { b.front with retry := .idle } }, [], .error (.unconnected .initiator)⟩
  | sent {agent : υ} (hretry : b.front.retry = .pending) (hagent : b.front.agent = some agent) :
      OwedRetry b
        ⟨{ b with front := { b.front with
            retry := .idle, agent := some (Initiator.retryRequest agent) } },
          [.notifyRetry], .ok ()⟩

theorem owedRetry_sendOwedRetry (b : Bridge υ δ) : OwedRetry b b.sendOwedRetry := by
  rw [sendOwedRetry]
  split
  next hretry => exact .none hretry
  next hretry =>
    dsimp only
    split
    next hagent => exact .lost hretry hagent
    next agent hagent => exact .sent hretry hagent

/-- The ends that sending responses can come to. -/
inductive ResponseSending (b : Bridge υ δ) (now : Tick) : Call υ δ Unit → Prop
  | unbound (hagent : b.front.agent = none) :
      ResponseSending b now ⟨b, [], .error (.unconnected .initiator)⟩
  /-- Nothing waits. -/
  | empty {agent : υ} (hagent : b.front.agent = some agent) (h : b.front.responses.entries = []) :
      ResponseSending b now ⟨b, [], .ok ()⟩
  /-- The head may not leave yet. -/
  | early {agent : υ} {head : Deferred} {rest : List Deferred}
      (hagent : b.front.agent = some agent) (h : b.front.responses.entries = head :: rest)
      (hearly : now < head.ready) :
      ResponseSending b now
        ⟨b.setFront (b.front.responses.arm head.ready).state agent,
          (b.front.responses.arm head.ready).effects, .ok ()⟩
  /-- The initiator refuses the head. -/
  | refused {agent agent' : υ} {head : Deferred} {rest : List Deferred} {packet : Packet}
      (hagent : b.front.agent = some agent) (h : b.front.responses.entries = head :: rest)
      (hdue : head.ready ≤ now)
      (hoffer : Initiator.offerResponse agent head.packet = (agent', .refused packet)) :
      ResponseSending b now
        ⟨b.setFront { b.front.responses with
            entries := ⟨packet, head.ready⟩ :: rest, awaitingRetry := true } agent',
          [.offer b.front.responses.direction head.packet false], .ok ()⟩
  /-- The initiator takes the head although no slot was reserved for it. -/
  | unreserved {agent agent' : υ} {head : Deferred} {rest : List Deferred}
      (hagent : b.front.agent = some agent) (h : b.front.responses.entries = head :: rest)
      (hdue : head.ready ≤ now)
      (hoffer : Initiator.offerResponse agent head.packet = (agent', .accepted))
      (hreserved : b.front.reserved = 0) :
      ResponseSending b now
        ⟨b.setFront ({ b.front.responses with entries := rest }.armForHead now).state agent',
          .offer b.front.responses.direction head.packet true ::
            ({ b.front.responses with entries := rest }.armForHead now).effects,
          .error .unreservedResponse⟩
  /-- The initiator takes the head; with the request queue full, an owed retry stays owed. -/
  | takenFull {agent agent' : υ} {head : Deferred} {rest : List Deferred} {reserved : Nat}
      (hagent : b.front.agent = some agent) (h : b.front.responses.entries = head :: rest)
      (hdue : head.ready ≤ now)
      (hoffer : Initiator.offerResponse agent head.packet = (agent', .accepted))
      (hreserved : b.front.reserved = reserved + 1) (hfull : b.back.requests.isFull = true) :
      ResponseSending b now
        ⟨(b.setFront ({ b.front.responses with entries := rest }.armForHead now).state
            agent').releaseSlot reserved,
          .offer b.front.responses.direction head.packet true ::
            ({ b.front.responses with entries := rest }.armForHead now).effects,
          .ok ()⟩
  /-- The initiator takes the head, and an owed retry is sent. -/
  | taken {agent agent' : υ} {head : Deferred} {rest : List Deferred} {reserved : Nat}
      (hagent : b.front.agent = some agent) (h : b.front.responses.entries = head :: rest)
      (hdue : head.ready ≤ now)
      (hoffer : Initiator.offerResponse agent head.packet = (agent', .accepted))
      (hreserved : b.front.reserved = reserved + 1) (hfull : b.back.requests.isFull = false) :
      ResponseSending b now
        (((b.setFront ({ b.front.responses with entries := rest }.armForHead now).state
            agent').releaseSlot reserved).sendOwedRetry.after
          (.offer b.front.responses.direction head.packet true ::
            ({ b.front.responses with entries := rest }.armForHead now).effects))

theorem responseSending_trySendResponse (b : Bridge υ δ) (now : Tick) :
    ResponseSending b now (b.trySendResponse now) := by
  rw [trySendResponse]
  cases hagent : b.front.agent with
  | none => exact .unbound hagent
  | some agent =>
    have hend := b.front.responses.attempt_trySend now agent Initiator.offerResponse
    dsimp only
    generalize b.front.responses.trySend now agent Initiator.offerResponse = sent at hend ⊢
    cases hend with
    | empty h =>
      have hb := setFront_self hagent
      rw [setFront] at hb
      dsimp only
      rw [hb]
      exact .empty hagent h
    | early h hearly => exact .early hagent h hearly
    | refused h hdue hoffer => exact .refused hagent h hdue hoffer
    | taken h hdue hoffer =>
      dsimp only
      split
      next hreserved => exact .unreserved hagent h hdue hoffer hreserved
      next reserved hreserved =>
        split
        next hfull => exact .takenFull hagent h hdue hoffer hreserved hfull
        next hfull => exact .taken hagent h hdue hoffer hreserved (Bool.not_eq_true _ ▸ hfull)

variable [Target δ]

/-- The ends that sending requests can come to. -/
inductive RequestSending (b : Bridge υ δ) (now : Tick) : Call υ δ Unit → Prop
  | unbound (hagent : b.back.agent = none) :
      RequestSending b now ⟨b, [], .error (.unconnected .target)⟩
  /-- Nothing waits. -/
  | empty {agent : δ} (hagent : b.back.agent = some agent) (h : b.back.requests.entries = []) :
      RequestSending b now ⟨b, [], .ok ()⟩
  /-- The head may not leave yet. -/
  | early {agent : δ} {head : Deferred} {rest : List Deferred} (hagent : b.back.agent = some agent)
      (h : b.back.requests.entries = head :: rest) (hearly : now < head.ready) :
      RequestSending b now
        ⟨b.setBack (b.back.requests.arm head.ready).state agent,
          (b.back.requests.arm head.ready).effects, .ok ()⟩
  /-- The target refuses the head. -/
  | refused {agent agent' : δ} {head : Deferred} {rest : List Deferred} {packet : Packet}
      (hagent : b.back.agent = some agent) (h : b.back.requests.entries = head :: rest)
      (hdue : head.ready ≤ now)
      (hoffer : Target.offerRequest agent head.packet = (agent', .refused packet)) :
      RequestSending b now
        ⟨b.setBack { b.back.requests with
            entries := ⟨packet, head.ready⟩ :: rest, awaitingRetry := true } agent',
          [.offer b.back.requests.direction head.packet false], .ok ()⟩
  /-- The target takes the head, and an owed retry is sent. -/
  | taken {agent agent' : δ} {head : Deferred} {rest : List Deferred}
      (hagent : b.back.agent = some agent) (h : b.back.requests.entries = head :: rest)
      (hdue : head.ready ≤ now)
      (hoffer : Target.offerRequest agent head.packet = (agent', .accepted)) :
      RequestSending b now
        ((b.setBack ({ b.back.requests with entries := rest }.armForHead now).state
            agent').sendOwedRetry.after
          (.offer b.back.requests.direction head.packet true ::
            ({ b.back.requests with entries := rest }.armForHead now).effects))

theorem requestSending_trySendRequest (b : Bridge υ δ) (now : Tick) :
    RequestSending b now (b.trySendRequest now) := by
  rw [trySendRequest]
  cases hagent : b.back.agent with
  | none => exact .unbound hagent
  | some agent =>
    have hend := b.back.requests.attempt_trySend now agent Target.offerRequest
    dsimp only
    generalize b.back.requests.trySend now agent Target.offerRequest = sent at hend ⊢
    cases hend with
    | empty h =>
      have hb := setBack_self hagent
      rw [setBack] at hb
      dsimp only
      rw [hb]
      exact .empty hagent h
    | early h hearly => exact .early hagent h hearly
    | refused h hdue hoffer => exact .refused hagent h hdue hoffer
    | taken h hdue hoffer => exact .taken hagent h hdue hoffer

end Bridge

end TimedBridge
