import TimedBridge.Generator
import TimedBridge.Memory
import TimedBridge.Proofs.Bridge.TimedCalls

/-!
Entering the queues, at any queue and any table. A request is queued and its route saved, or nothing
happens: when the queue is full, the route that has just been saved is taken out again
(`requestEntry_queueRequest`). A response has no such way back. When its queue is full, the route of its
request is gone, and the response cannot be queued later either (`responseEntry_queueResponse`).
-/

namespace TimedBridge

namespace Bridge

variable {υ δ : Type} {b : Bridge υ δ} {p : Packet} {ready : Tick}

/-! ### Requests -/

/-- A route is saved only for an identity that does not wait. -/
theorem not_contains_of_save {t table : RequestTable} {id : RequestId} {route : Route}
    (h : t.save id route = .ok table) : t.contains id = false := by
  rw [RequestTable.save] at h
  split at h
  · contradiction
  · rename_i hwaiting
    exact Bool.eq_false_iff.2 hwaiting

/-- A request that finds the queue full leaves the bridge as it is. -/
theorem queueRequest_of_full (ready : Tick) {table : RequestTable}
    (hfull : b.back.requests.capacity ≤ b.back.requests.size)
    (hsave : (if p.expectsResponse then b.table.save p.id p.source else .ok b.table) = .ok table) :
    b.queueRequest p ready =
      ⟨b, [], .error (.queueOverflow b.back.requests.direction b.back.requests.capacity)⟩ := by
  rw [queueRequest, hsave]
  simp only [TransmitQueue.push_of_full p ready hfull]
  cases hexpects : p.expectsResponse with
  | false =>
    rw [hexpects] at hsave
    cases hsave
    rfl
  | true =>
    rw [hexpects] at hsave
    rw [if_pos rfl, RequestTable.take_save hsave]

/-- What becomes of a request that is to be queued. -/
structure RequestEntry (b : Bridge υ δ) (p : Packet) (ready : Tick) (called : Call υ δ Unit) :
    Prop where
  answer : called.answer =
    if p.expectsResponse = true ∧ b.table.contains p.id = true then .error (.duplicateRequest p.id)
    else if b.back.requests.isFull then
      .error (.queueOverflow b.back.requests.direction b.back.requests.capacity)
    else .ok ()
  /-- The route that is taken out again is always there. -/
  not_missing : ∀ id, called.answer ≠ .error (.missingRequest id)
  failed : ∀ fault, called.answer = .error fault → called.state = b ∧ called.effects = []
  /-- Only the queue and the table change: the queue by the request, the table by its route. -/
  queued : called.answer = .ok () →
    called.state = { b with
      back := { b.back with requests := (b.back.requests.push p ready).state }
      table := called.state.table } ∧
    called.effects = (b.back.requests.push p ready).effects ∧
    called.state.back.requests.entries = b.back.requests.entries ++ [⟨p, ready⟩] ∧
    ∀ id, called.state.table.route? id =
      if p.expectsResponse = true ∧ id = p.id then some p.source else b.table.route? id

/-- To queue a request is all or nothing. -/
theorem requestEntry_queueRequest (b : Bridge υ δ) (p : Packet) (ready : Tick) :
    b.RequestEntry p ready (b.queueRequest p ready) := by
  rcases saved_or_waiting b.table p with ⟨table, hsave⟩ | ⟨hexpects, hwaiting⟩
  · have hfresh : ¬ (p.expectsResponse = true ∧ b.table.contains p.id = true) := by
      rintro ⟨hexpects, hwaiting⟩
      rw [if_pos hexpects] at hsave
      exact Bool.false_ne_true ((not_contains_of_save hsave).symm.trans hwaiting)
    by_cases hroom : b.back.requests.size < b.back.requests.capacity
    · have hnotFull : ¬ b.back.requests.isFull = true := by
        rw [TransmitQueue.isFull_iff]
        exact Nat.not_le.2 hroom
      rw [queueRequest_of_saved ready table hroom hsave]
      refine ⟨by rw [if_neg hfresh, if_neg hnotFull], nofun, nofun, fun _ => ⟨rfl, rfl, ?_, fun id => ?_⟩⟩
      · exact TransmitQueue.entries_push p ready hroom
      · cases hexpects : p.expectsResponse with
        | false =>
          rw [hexpects] at hsave
          cases hsave
          simp
        | true =>
          rw [hexpects] at hsave
          rw [RequestTable.route?_save hsave]
          simp
    · have hfull := Nat.not_lt.1 hroom
      rw [queueRequest_of_full ready hfull hsave]
      exact ⟨by rw [if_neg hfresh, if_pos ((TransmitQueue.isFull_iff _).2 hfull)], nofun,
        fun _ _ => ⟨rfl, rfl⟩, nofun⟩
  · rw [queueRequest_of_waiting ready hexpects hwaiting]
    exact ⟨by rw [if_pos ⟨hexpects, hwaiting⟩], nofun, fun _ _ => ⟨rfl, rfl⟩, nofun⟩

/-! ### Responses -/

/-- What becomes of a response that is to be queued. -/
structure ResponseEntry (b : Bridge υ δ) (p : Packet) (ready : Tick) (called : Call υ δ Unit) :
    Prop where
  answer : called.answer =
    if b.table.contains p.id = true then
      if b.front.responses.isFull then
        .error (.queueOverflow b.front.responses.direction b.front.responses.capacity)
      else .ok ()
    else .error (.missingRequest p.id)
  /-- Without a request that waits for it, a response changes nothing. -/
  missing : b.table.contains p.id = false → called.state = b ∧ called.effects = []
  /-- A request waits no longer, once a response to it has come, whether that was queued or not. -/
  taken : b.table.contains p.id = true → ∀ id, called.state.table.route? id =
    if id = p.id then none else b.table.route? id
  /-- A response that finds its queue full leaves all but the table as it is. Coming again, it finds no
  request. -/
  overflowed : ∀ direction capacity, called.answer = .error (.queueOverflow direction capacity) →
    called.state = { b with table := called.state.table } ∧ called.effects = [] ∧
      ∀ again, (called.state.queueResponse p again).answer = .error (.missingRequest p.id)
  /-- A response that finds room is sent along the route that was saved for it. -/
  queued : called.answer = .ok () → ∃ route, b.table.route? p.id = some route ∧
    called.state = { b with
      front := { b.front with
        responses := (b.front.responses.push { p with destination := some route } ready).state }
      table := called.state.table } ∧
    called.effects = (b.front.responses.push { p with destination := some route } ready).effects ∧
    called.state.front.responses.entries =
      b.front.responses.entries ++ [⟨{ p with destination := some route }, ready⟩]

/-- A response to a request that waits is pushed, and the request is taken from the table in any case. -/
theorem exists_queueResponse (ready : Tick) (h : b.table.contains p.id = true) :
    ∃ route table, b.table.take p.id = .ok (route, table) ∧ b.queueResponse p ready =
      ⟨{ b with
          front := { b.front with
            responses :=
              (b.front.responses.push { p with destination := some route } ready).state }
          table },
        (b.front.responses.push { p with destination := some route } ready).effects,
        (b.front.responses.push { p with destination := some route } ready).answer⟩ := by
  obtain ⟨route, hroute⟩ := Option.isSome_iff_exists.1 h
  obtain ⟨table, htake⟩ : ∃ table, b.table.take p.id = .ok (route, table) :=
    ⟨_, by rw [RequestTable.take, hroute]⟩
  exact ⟨route, table, htake, by rw [queueResponse, htake]⟩

theorem queueResponse_of_missing (ready : Tick) (h : b.table.route? p.id = none) :
    b.queueResponse p ready = ⟨b, [], .error (.missingRequest p.id)⟩ := by
  rw [queueResponse, RequestTable.take, h]

/-- Of a response whose queue is full nothing is kept, but its request is taken. -/
theorem responseEntry_queueResponse (b : Bridge υ δ) (p : Packet) (ready : Tick) :
    b.ResponseEntry p ready (b.queueResponse p ready) := by
  cases hwaiting : b.table.contains p.id with
  | false =>
    have hroute : b.table.route? p.id = none :=
      Option.not_isSome_iff_eq_none.1 (Bool.eq_false_iff.1 hwaiting)
    rw [queueResponse_of_missing ready hroute]
    refine ⟨by rw [if_neg (Bool.eq_false_iff.1 hwaiting)], fun _ => ⟨rfl, rfl⟩, fun h => ?_, nofun, nofun⟩
    exact absurd (hwaiting.symm.trans h) Bool.false_ne_true
  | true =>
    obtain ⟨route, table, htake, hqueued⟩ := exists_queueResponse ready hwaiting
    have htaken := RequestTable.route?_take htake
    rw [hqueued]
    by_cases hroom : b.front.responses.size < b.front.responses.capacity
    · have hanswer : (b.front.responses.push { p with destination := some route } ready).answer =
          .ok () := by
        rw [TransmitQueue.push_of_room _ _ hroom]
      have hnotFull : ¬ b.front.responses.isFull = true := by
        rw [TransmitQueue.isFull_iff]
        exact Nat.not_le.2 hroom
      rw [hanswer]
      refine ⟨by rw [if_pos hwaiting, if_neg hnotFull], fun h => ?_, fun _ => htaken, nofun, fun _ => ?_⟩
      · exact absurd (hwaiting.symm.trans h) nofun
      · exact ⟨route, RequestTable.route?_of_take htake, rfl, rfl,
          TransmitQueue.entries_push _ ready hroom⟩
    · have hfull := Nat.not_lt.1 hroom
      have hgone : table.route? p.id = none := by rw [htaken, if_pos rfl]
      rw [TransmitQueue.push_of_full _ _ hfull]
      refine ⟨by rw [if_pos hwaiting, if_pos ((TransmitQueue.isFull_iff _).2 hfull)], fun h => ?_,
        fun _ => htaken, fun _ _ _ => ⟨rfl, rfl, fun again => ?_⟩, nofun⟩
      · exact absurd (hwaiting.symm.trans h) nofun
      · rw [queueResponse_of_missing again hgone]

/-- A bridge without room for responses, in which request 1 waits for its response. -/
def slotless : Bridge Generator Memory where
  name := "bridge"
  front := {
    name := "bridge.upstream"
    crossing := ⟨.ofPeriod 1, 1, .zero⟩
    responses := { direction := .response, capacity := 0 }
    tag := 0
    ranges := [] }
  back := {
    name := "bridge.downstream"
    crossing := ⟨.ofPeriod 1, 1, .zero⟩
    requests := { direction := .request, capacity := 1 } }
  table := { entries := [(1, 7)] }
  tagBase := 0

/-- To queue a response is not all or nothing: when the queue is full, the route that was saved for the
response is lost. -/
theorem not_unchanged_overflow :
    ¬ ∀ (b : Bridge Generator Memory) p ready fault, (b.queueResponse p ready).answer = .error fault →
      (b.queueResponse p ready).state.table = b.table ∧
        (b.queueResponse p ready).state.front.responses = b.front.responses ∧
        (b.queueResponse p ready).effects = [] := by
  intro hunchanged
  have hsame := (hunchanged slotless (Packet.read 1 0 4 7).respond 0 (.queueOverflow .response 0) rfl).1
  have hroute := congrArg (fun t : RequestTable => t.route? 1) hsame
  contradiction

end Bridge

end TimedBridge
