import TimedBridge.Proofs.Bridge.History
import TimedBridge.Proofs.Bridge.TimedCalls
import TimedBridge.Proofs.Bridge.UntimedCalls

/-!
The ledger of a bridge: how much is queued, waiting and reserved, how much there is room for, and
whether a retry is owed. Each call makes one posting, which can be told from the call, its effects and
its answer (`Turn.posting`), and a posting changes the ledger in one way (`Ledger.Posts`). The main
statement, `posts_turn`, takes every call on a bridge to its posting, so that what the postings keep
holds of every run.
-/

namespace TimedBridge

/-- The counters of a bridge. -/
structure Ledger where
  requestSlots : Nat
  responseSlots : Nat
  /-- Requests in the queue. -/
  requests : Nat
  /-- Responses in the queue. -/
  responses : Nat
  /-- Requests in the table. -/
  waiting : Nat
  /-- Response slots that are reserved. -/
  reserved : Nat
  retry : RetryState
  deriving DecidableEq, Repr

/-- What a call does to the counters. -/
inductive Posting where
  | quiet
  /-- A request is handed back. -/
  | refuse
  /-- A slot is reserved for a request that is then turned away. -/
  | forfeit
  | enter (answered : Bool)
  /-- A response joins the queue. -/
  | answer
  /-- A response finds the queue full. -/
  | overflow
  /-- A packet leaves for the agent at the end of its way. -/
  | leave (direction : Direction)
  /-- A response leaves without a slot reserved for it. -/
  | unreserved
  deriving DecidableEq, Repr

/-- How a posting changes a ledger, and when it can be made. -/
inductive Ledger.Posts : Posting → Ledger → Ledger → Prop
  | quiet (l : Ledger) : Posts .quiet l l
  | refuse {l : Ledger} (hretry : l.retry = .idle)
      (hfull : l.requestSlots ≤ l.requests ∨ l.responseSlots ≤ l.reserved) :
      Posts .refuse l { l with retry := .pending }
  | forfeit {l : Ledger} (hretry : l.retry = .idle) (hslot : l.reserved < l.responseSlots)
      (hwaiting : 0 < l.waiting) :
      Posts .forfeit l { l with reserved := l.reserved + 1 }
  | enterSilent {l : Ledger} (hretry : l.retry = .idle) (hroom : l.requests < l.requestSlots) :
      Posts (.enter false) l { l with requests := l.requests + 1 }
  | enterAnswered {l : Ledger} (hretry : l.retry = .idle) (hroom : l.requests < l.requestSlots)
      (hslot : l.reserved < l.responseSlots) :
      Posts (.enter true) l
        { l with
          requests := l.requests + 1
          waiting := l.waiting + 1
          reserved := l.reserved + 1 }
  | answer {l : Ledger} {waiting : Nat} (hwaiting : l.waiting = waiting + 1)
      (hroom : l.responses < l.responseSlots) :
      Posts .answer l { l with waiting, responses := l.responses + 1 }
  | overflow {l : Ledger} {waiting : Nat} (hwaiting : l.waiting = waiting + 1)
      (hfull : l.responseSlots ≤ l.responses) :
      Posts .overflow l { l with waiting }
  | requestLeaves {l : Ledger} {requests : Nat} (hrequests : l.requests = requests + 1) :
      Posts (.leave .request) l { l with requests, retry := .idle }
  | responseLeaves {l : Ledger} {responses reserved : Nat} (hresponses : l.responses = responses + 1)
      (hreserved : l.reserved = reserved + 1) :
      Posts (.leave .response) l
        { l with
          responses
          reserved
          retry := if l.requestSlots ≤ l.requests then l.retry else .idle }
  | unreserved {l : Ledger} {responses : Nat} (hresponses : l.responses = responses + 1)
      (hreserved : l.reserved = 0) :
      Posts .unreserved l { l with responses }

theorem Ledger.Posts.of_eq {l l' : Ledger} (h : l' = l) : Posts .quiet l l' := h ▸ .quiet l

namespace Posting

variable {α β : Type}

/-- The posting of an attempt to send. -/
def ofSend (direction : Direction) (effects : List Effect) : Except BridgeFault α → Posting
  | .error (.queueOverflow ..) => .overflow
  | .error .unreservedResponse => .unreserved
  | _ => if (Effect.offers effects).any fun offer => offer.2.2 then .leave direction else .quiet

theorem ofSend_map (direction : Direction) (effects : List Effect) (answer : Except BridgeFault α)
    (f : α → β) : ofSend direction effects (answer.map f) = ofSend direction effects answer := by
  cases answer with
  | ok => rfl
  | error fault => cases fault <;> rfl

/-- An attempt that offered nothing leaves the counters alone. -/
theorem ofSend_of_no_offer {effects : List Effect} (direction : Direction) (answer : α)
    (h : Effect.offers effects = []) : ofSend direction effects (.ok answer) = .quiet := by
  simp [ofSend, h]

theorem ofSend_ne_forfeit (direction : Direction) (effects : List Effect)
    (answer : Except BridgeFault α) : ofSend direction effects answer ≠ .forfeit := by
  rw [ofSend.eq_def]
  split
  · decide
  · decide
  · split <;> exact fun h => nomatch h

end Posting

/-- The posting that a call makes. -/
def Turn.posting {υ δ : Type} (t : Turn υ δ) : Posting :=
  match t.operation, t.answer with
  | .attempt direction, answer => .ofSend direction t.effects answer
  | .retry direction, answer => .ofSend direction t.effects answer
  | _, .error (.queueOverflow ..) => .overflow
  | _, .error .unreservedResponse => .unreserved
  | .submit _, .error (.duplicateRequest _) => .forfeit
  | .submit _, .ok (.admission (.refused _)) => .refuse
  | .submit packet, .ok _ => .enter packet.expectsResponse
  | .respond _, .ok _ => .answer
  | _, _ => .quiet

namespace Bridge

variable {υ δ : Type}

/-- The ledger of a bridge. -/
def ledger (b : Bridge υ δ) : Ledger where
  requestSlots := b.back.requests.capacity
  responseSlots := b.front.responses.capacity
  requests := b.back.requests.size
  responses := b.front.responses.size
  waiting := b.table.size
  reserved := b.front.reserved
  retry := b.front.retry

/-- The ledger counts places, and a functional access changes none. -/
theorem ledger_withQueues {b : Bridge υ δ} {responses requests : TransmitQueue}
    (hresponses : b.front.responses.Alike responses) (hrequests : b.back.requests.Alike requests) :
    (b.withQueues responses requests).ledger = b.ledger := by
  simp only [ledger, withQueues, hresponses.size_eq, hresponses.capacity_eq, hrequests.size_eq,
    hrequests.capacity_eq]

/-- The ledger does not show what a queue waits for. -/
theorem ledger_setQueue (b : Bridge υ δ) (d : Direction) (sendScheduled awaitingRetry : Bool) :
    (b.setQueue { b.queue d with sendScheduled, awaitingRetry } d).ledger = b.ledger := by
  cases d <;> rfl

/-! ### Leaving the queues -/

theorem ledger_arm_responses (b : Bridge υ δ) (tick : Tick) (agent : υ) :
    (b.setFront (b.front.responses.arm tick).state agent).ledger = b.ledger := by
  simp only [ledger, setFront, TransmitQueue.size, TransmitQueue.entries_arm,
    TransmitQueue.capacity_arm]

theorem ledger_arm_requests (b : Bridge υ δ) (tick : Tick) (agent : δ) :
    (b.setBack (b.back.requests.arm tick).state agent).ledger = b.ledger := by
  simp only [ledger, setBack, TransmitQueue.size, TransmitQueue.entries_arm,
    TransmitQueue.capacity_arm]

/-- The ledger when a response has left its queue. -/
theorem ledger_response_left (b : Bridge υ δ) (now : Tick) (agent : υ) (rest : List Deferred) :
    (b.setFront ({ b.front.responses with entries := rest }.armForHead now).state agent).ledger =
      { b.ledger with responses := rest.length } := by
  simp only [ledger, setFront, TransmitQueue.size, TransmitQueue.entries_armForHead,
    TransmitQueue.capacity_armForHead]

/-- The ledger when a request has left its queue. -/
theorem ledger_request_left (b : Bridge υ δ) (now : Tick) (agent : δ) (rest : List Deferred) :
    (b.setBack ({ b.back.requests with entries := rest }.armForHead now).state agent).ledger =
      { b.ledger with requests := rest.length } := by
  simp only [ledger, setBack, TransmitQueue.size, TransmitQueue.entries_armForHead,
    TransmitQueue.capacity_armForHead]

theorem ledger_releaseSlot (b : Bridge υ δ) (reserved : Nat) :
    (b.releaseSlot reserved).ledger = { b.ledger with reserved } := rfl

variable [Initiator υ]

/-- Sending an owed retry settles it and touches no other counter. -/
theorem ledger_sendOwedRetry (b : Bridge υ δ) :
    b.sendOwedRetry.state.ledger = { b.ledger with retry := .idle } := by
  have hend := owedRetry_sendOwedRetry b
  generalize b.sendOwedRetry = called at hend ⊢
  cases hend with
  | none hretry => rw [← hretry]; rfl
  | lost => rfl
  | sent => rfl

/-- When a packet has been taken, the posting is its departure, whatever becomes of an owed retry. -/
theorem ofSend_sendOwedRetry (b : Bridge υ δ) (direction other : Direction) (packet : Packet)
    (effects : List Effect) :
    Posting.ofSend direction
      (b.sendOwedRetry.after (.offer other packet true :: effects)).effects
      (b.sendOwedRetry.after (.offer other packet true :: effects)).answer = .leave direction := by
  have hend := owedRetry_sendOwedRetry b
  generalize b.sendOwedRetry = called at hend ⊢
  cases hend <;> rfl

theorem posts_trySendResponse (b : Bridge υ δ) (now : Tick) :
    Ledger.Posts (.ofSend .response (b.trySendResponse now).effects (b.trySendResponse now).answer)
      b.ledger (b.trySendResponse now).state.ledger := by
  have hend := responseSending_trySendResponse b now
  generalize b.trySendResponse now = called at hend ⊢
  cases hend with
  | unbound => exact .quiet _
  | empty => exact .quiet _
  | @early agent head rest hagent h hearly =>
    rw [ledger_arm_responses, Posting.ofSend_of_no_offer _ _ (TransmitQueue.offers_arm ..)]
    exact .quiet _
  | @refused agent agent' head rest packet hagent h hdue hoffer =>
    have hledger : (b.setFront { b.front.responses with
        entries := ⟨packet, head.ready⟩ :: rest, awaitingRetry := true } agent').ledger = b.ledger := by
      simp only [ledger, setFront, TransmitQueue.size, h, List.length_cons]
    rw [hledger]
    exact .quiet _
  | @unreserved agent agent' head rest hagent h hdue hoffer hreserved =>
    rw [ledger_response_left]
    exact .unreserved (congrArg List.length h) hreserved
  | @takenFull agent agent' head rest reserved hagent h hdue hoffer hreserved hfull =>
    have hresponses : b.ledger.responses = rest.length + 1 := congrArg List.length h
    have hslots : b.ledger.requestSlots ≤ b.ledger.requests := (TransmitQueue.isFull_iff _).1 hfull
    have hposts := Ledger.Posts.responseLeaves hresponses hreserved
    rw [if_pos hslots] at hposts
    rw [ledger_releaseSlot, ledger_response_left]
    exact hposts
  | @taken agent agent' head rest reserved hagent h hdue hoffer hreserved hfull =>
    have hresponses : b.ledger.responses = rest.length + 1 := congrArg List.length h
    have hslots : ¬ b.ledger.requestSlots ≤ b.ledger.requests := fun hle =>
      Bool.false_ne_true (hfull ▸ (TransmitQueue.isFull_iff _).2 hle)
    have hposts := Ledger.Posts.responseLeaves hresponses hreserved
    rw [if_neg hslots] at hposts
    rw [ofSend_sendOwedRetry, Outcome.after, ledger_sendOwedRetry, ledger_releaseSlot,
      ledger_response_left]
    exact hposts

variable [Target δ]

theorem posts_trySendRequest (b : Bridge υ δ) (now : Tick) :
    Ledger.Posts (.ofSend .request (b.trySendRequest now).effects (b.trySendRequest now).answer)
      b.ledger (b.trySendRequest now).state.ledger := by
  have hend := requestSending_trySendRequest b now
  generalize b.trySendRequest now = called at hend ⊢
  cases hend with
  | unbound => exact .quiet _
  | empty => exact .quiet _
  | @early agent head rest hagent h hearly =>
    rw [ledger_arm_requests, Posting.ofSend_of_no_offer _ _ (TransmitQueue.offers_arm ..)]
    exact .quiet _
  | @refused agent agent' head rest packet hagent h hdue hoffer =>
    have hledger : (b.setBack { b.back.requests with
        entries := ⟨packet, head.ready⟩ :: rest, awaitingRetry := true } agent').ledger = b.ledger := by
      simp only [ledger, setBack, TransmitQueue.size, h, List.length_cons]
    rw [hledger]
    exact .quiet _
  | @taken agent agent' head rest hagent h hdue hoffer =>
    have hrequests : b.ledger.requests = rest.length + 1 := congrArg List.length h
    rw [ofSend_sendOwedRetry, Outcome.after, ledger_sendOwedRetry, ledger_request_left]
    exact .requestLeaves hrequests

/-- The posting of a call moves the ledger to that of the bridge that the call leaves. -/
def PostsTurn (b : Bridge υ δ) (now : Tick) (operation : Operation υ δ) : Prop :=
  Ledger.Posts (b.turn now operation).posting b.ledger (b.perform now operation).state.ledger

/-! ### Entering the queues -/

theorem contains_pos {table : RequestTable} {id : RequestId} (h : table.contains id = true) :
    0 < table.size := by
  have hmem := RequestTable.contains_iff_mem.1 h
  have hpos := List.length_pos_of_mem hmem
  rwa [List.length_map] at hpos

theorem postsTurn_submit (b : Bridge υ δ) (now : Tick) (p : Packet) :
    b.PostsTurn now (.submit p) := by
  have hend := submission_submit b now p
  simp only [PostsTurn, turn, perform]
  generalize b.submit now p = called at hend ⊢
  cases hend with
  | early => exact .quiet _
  | refused hretry hroom =>
    -- Without room, the queue of requests or the response slots are used up.
    refine .refuse hretry ?_
    by_cases hqueue : b.back.requests.size < b.back.requests.capacity
    · right
      refine Nat.not_lt.1 fun hslot => hroom ⟨hqueue, fun _ => hslot⟩
    · exact .inl (Nat.not_lt.1 hqueue)
  | alreadyTagged => exact .quiet _
  | duplicate hretry hroom htag hexpects hwaiting =>
    exact .forfeit hretry (hroom.2 hexpects) (contains_pos hwaiting)
  | accepted hretry hroom htag hsave =>
    have hsize : (b.pushRequest now p).state.size = b.back.requests.size + 1 :=
      TransmitQueue.size_push _ _ hroom.1
    have hslots : (b.pushRequest now p).state.capacity = b.back.requests.capacity :=
      TransmitQueue.capacity_push ..
    cases hexpects : p.expectsResponse with
    | false =>
      rw [hexpects] at hsave
      obtain rfl := Except.ok.inj hsave
      simp only [Outcome.answering, Except.map, Turn.posting, hexpects, ledger, hsize, hslots]
      exact .enterSilent hretry hroom.1
    | true =>
      rw [hexpects] at hsave
      have hwaiting := RequestTable.size_save hsave
      simp only [Outcome.answering, Except.map, Turn.posting, hexpects, ledger, hsize, hslots,
        hwaiting]
      exact .enterAnswered hretry hroom.1 (hroom.2 hexpects)

theorem postsTurn_respond (b : Bridge υ δ) (now : Tick) (p : Packet) :
    b.PostsTurn now (.respond p) := by
  have hend := reception_respond b now p
  simp only [PostsTurn, turn, perform]
  generalize b.respond now p = called at hend ⊢
  cases hend with
  | unknown => exact .quiet _
  | overflow htake hfull => exact .overflow (RequestTable.size_take htake).symm hfull
  | queued htake hroom =>
    have hsize : ∀ route, (b.pushResponse now p route).state.size = b.front.responses.size + 1 :=
      fun _ => TransmitQueue.size_push _ _ hroom
    have hslots : ∀ route, (b.pushResponse now p route).state.capacity = b.front.responses.capacity :=
      fun _ => TransmitQueue.capacity_push ..
    simp only [Outcome.answering, Except.map, Turn.posting, ledger, hsize, hslots]
    exact .answer (RequestTable.size_take htake).symm hroom

/-! ### Every call -/

theorem posts_trySend (b : Bridge υ δ) (now : Tick) (d : Direction) :
    Ledger.Posts (.ofSend d (b.trySend now d).effects (b.trySend now d).answer) b.ledger
      (b.trySend now d).state.ledger := by
  cases d with
  | request => exact b.posts_trySendRequest now
  | response => exact b.posts_trySendResponse now

theorem postsTurn_attempt (b : Bridge υ δ) (now : Tick) (d : Direction) :
    b.PostsTurn now (.attempt d) := by
  have hposts := (b.setQueue (b.queue d).attemptDue d).posts_trySend now d
  rw [TransmitQueue.attemptDue, ledger_setQueue] at hposts
  simp only [PostsTurn, turn, perform_attempt, Turn.posting, Outcome.answering, Posting.ofSend_map]
  exact hposts

theorem postsTurn_retry (b : Bridge υ δ) (now : Tick) (d : Direction) :
    b.PostsTurn now (.retry d) := by
  have hposts := (b.setQueue { b.queue d with awaitingRetry := false } d).posts_trySend now d
  rw [ledger_setQueue] at hposts
  simp only [PostsTurn, turn, perform_retry, Turn.posting]
  split
  · simp only [Outcome.answering, Posting.ofSend_map]
    exact hposts
  · exact .quiet _

theorem postsTurn_functional (b : Bridge υ δ) (now : Tick) (p : Packet) :
    b.PostsTurn now (.functional p) := by
  have hend := functionalAccess_functional b p
  simp only [PostsTurn, turn, perform]
  generalize b.functional p = called at hend ⊢
  cases hend with
  | alreadyTagged => exact .quiet _
  | byResponse htag hresponses =>
    exact .of_eq (ledger_withQueues (TransmitQueue.alike_snoop hresponses) (.refl _))
  | byRequest htag hresponses hrequests =>
    exact .of_eq (ledger_withQueues (TransmitQueue.alike_snoop hresponses)
      (TransmitQueue.alike_snoop hrequests))
  | unbound htag hresponses hrequests =>
    exact .of_eq (ledger_withQueues (TransmitQueue.alike_snoop hresponses)
      (TransmitQueue.alike_snoop hrequests))
  | performed htag hresponses hrequests =>
    exact .of_eq (ledger_withQueues (TransmitQueue.alike_snoop hresponses)
      (TransmitQueue.alike_snoop hrequests))

/-- Every call makes its posting. -/
theorem posts_turn (b : Bridge υ δ) (now : Tick) (operation : Operation υ δ) :
    Ledger.Posts (b.turn now operation).posting b.ledger (b.perform now operation).state.ledger := by
  cases operation with
  | bindInitiator => exact .quiet _
  | bindTarget => exact .quiet _
  | start =>
    have hend := starting_start b
    simp only [turn, perform]
    generalize b.start = called at hend ⊢
    cases hend <;> exact .quiet _
  | submit p => exact b.postsTurn_submit now p
  | respond p => exact b.postsTurn_respond now p
  | attempt direction => exact b.postsTurn_attempt now direction
  | retry direction => exact b.postsTurn_retry now direction
  | atomic p =>
    have hend := atomicAccess_atomic b p
    simp only [turn, perform]
    generalize b.atomic p = called at hend ⊢
    cases hend <;> exact .quiet _
  | functional p => exact b.postsTurn_functional now p

end Bridge

end TimedBridge
