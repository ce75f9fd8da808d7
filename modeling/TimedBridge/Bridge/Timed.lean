import TimedBridge.Bridge.Basic

/-!
Timed traffic. A request is let in if the request queue has room and, when it will be answered, a
response slot is left; otherwise it is handed back and the initiator is owed a retry. Requests leave
for the target and responses for the initiator on the clock edge that their crossing takes them to,
in order of arrival. A departure frees the way for the request that was handed back, so it sends the
retry.
-/

namespace TimedBridge

/-- The packet with the bridge's tag; a packet that carries a tag already is a fault. -/
def Packet.withTag (p : Packet) (tag : TrafficTag) : Except BridgeFault Packet :=
  match p.tag with
  | some existing => .error (.alreadyTagged p.id existing)
  | none => .ok { p with tag := some tag }

namespace Bridge

variable {υ δ : Type}

/-! ### Entering the queues -/

/-- Queues a request for the target and, when it will be answered, saves the route back first. The route
is taken out again if the queue is full. -/
def queueRequest (b : Bridge υ δ) (packet : Packet) (ready : Tick) : Call υ δ Unit :=
  let saved :=
    if packet.expectsResponse then b.table.save packet.id packet.source else .ok b.table
  match saved with
  | .error fault => ⟨b, [], .error fault⟩
  | .ok table =>
    let pushed := b.back.requests.push packet ready
    let b := { b with back := { b.back with requests := pushed.state }, table }
    match pushed.answer with
    | .ok () => ⟨b, pushed.effects, .ok ()⟩
    | .error fault =>
      if packet.expectsResponse then
        match table.take packet.id with
        | .error missing => ⟨b, pushed.effects, .error missing⟩
        | .ok (_, table) => ⟨{ b with table }, pushed.effects, .error fault⟩
      else ⟨b, pushed.effects, .error fault⟩

/-- Queues a response for the initiator, addressed to where its request came from. -/
def queueResponse (b : Bridge υ δ) (packet : Packet) (ready : Tick) : Call υ δ Unit :=
  match b.table.take packet.id with
  | .error fault => ⟨b, [], .error fault⟩
  | .ok (route, table) =>
    let pushed := b.front.responses.push { packet with destination := some route } ready
    ⟨{ b with front := { b.front with responses := pushed.state }, table }, pushed.effects,
      pushed.answer⟩

/-- The initiator submits a request at `now`. -/
def submit (b : Bridge υ δ) (now : Tick) (packet : Packet) : Call υ δ Admission :=
  if b.front.retry = .pending then ⟨b, [], .error .requestDuringRetry⟩
  else if b.back.requests.isFull || packet.expectsResponse && b.front.slotsFull then
    ⟨{ b with front := { b.front with retry := .pending } }, [], .ok (.refused packet)⟩
  else
    match packet.withTag b.front.tag with
    | .error fault => ⟨b, [], .error fault⟩
    | .ok tagged =>
      let reserved := if tagged.expectsResponse then b.front.reserved + 1 else b.front.reserved
      let b := { b with front := { b.front with reserved } }
      let queued := b.queueRequest (b.front.crossing.charge tagged) (b.front.crossing.readyAt now)
      { queued with answer := queued.answer.map fun () => .accepted }

/-- The target answers with a response at `now`. -/
def respond (b : Bridge υ δ) (now : Tick) (packet : Packet) : Call υ δ Unit :=
  b.queueResponse (b.back.crossing.charge packet) (b.back.crossing.readyAt now)

/-! ### Leaving the queues -/

variable [Initiator υ]

/-- Sends the initiator the retry that it is owed, if it is owed one. -/
def sendOwedRetry (b : Bridge υ δ) : Call υ δ Unit :=
  match b.front.retry with
  | .idle => ⟨b, [], .ok ()⟩
  | .pending =>
    let b := { b with front := { b.front with retry := .idle } }
    match b.front.agent with
    | none => ⟨b, [], .error (.unconnected .initiator)⟩
    | some agent => ⟨b.withInitiator (Initiator.retryRequest agent), [.notifyRetry], .ok ()⟩

/-- Offers the target the request at the head of the queue, if it may leave. -/
def trySendRequest [Target δ] (b : Bridge υ δ) (now : Tick) : Call υ δ Unit :=
  match b.back.agent with
  | none => ⟨b, [], .error (.unconnected .target)⟩
  | some agent =>
    let sent := b.back.requests.trySend now agent Target.offerRequest
    let b := { b with
      back := { b.back with requests := sent.state.1, agent := some sent.state.2 } }
    match sent.answer with
    | none => ⟨b, sent.effects, .ok ()⟩
    | some _ => b.sendOwedRetry.after sent.effects

/-- Offers the initiator the response at the head of the queue, if it may leave. A departure frees
its slot, and the owed retry is sent unless the request queue is still full. -/
def trySendResponse (b : Bridge υ δ) (now : Tick) : Call υ δ Unit :=
  match b.front.agent with
  | none => ⟨b, [], .error (.unconnected .initiator)⟩
  | some agent =>
    let sent := b.front.responses.trySend now agent Initiator.offerResponse
    let b := { b with
      front := { b.front with responses := sent.state.1, agent := some sent.state.2 } }
    match sent.answer with
    | none => ⟨b, sent.effects, .ok ()⟩
    | some _ =>
      match b.front.reserved with
      | 0 => ⟨b, sent.effects, .error .unreservedResponse⟩
      | reserved + 1 =>
        let b := { b with front := { b.front with reserved } }
        if b.back.requests.isFull then ⟨b, sent.effects, .ok ()⟩
        else b.sendOwedRetry.after sent.effects

/-- The attempt to send requests comes due. -/
def requestAttempt [Target δ] (b : Bridge υ δ) (now : Tick) : Call υ δ Unit :=
  trySendRequest { b with back := { b.back with requests := b.back.requests.attemptDue } } now

/-- The attempt to send responses comes due. -/
def responseAttempt (b : Bridge υ δ) (now : Tick) : Call υ δ Unit :=
  trySendResponse { b with front := { b.front with responses := b.front.responses.attemptDue } } now

/-- The attempt to send in a direction comes due. -/
def attempt [Target δ] (b : Bridge υ δ) (now : Tick) : Direction → Call υ δ Unit
  | .request => b.requestAttempt now
  | .response => b.responseAttempt now

/-- The target signals that the request it refused may be offered again. -/
def requestRetry [Target δ] (b : Bridge υ δ) (now : Tick) : Call υ δ Unit :=
  match b.back.requests.takeRetry with
  | .error fault => ⟨b, [], .error fault⟩
  | .ok requests => trySendRequest { b with back := { b.back with requests } } now

/-- The initiator signals that the response it refused may be offered again. -/
def responseRetry (b : Bridge υ δ) (now : Tick) : Call υ δ Unit :=
  match b.front.responses.takeRetry with
  | .error fault => ⟨b, [], .error fault⟩
  | .ok responses => trySendResponse { b with front := { b.front with responses } } now

end Bridge

end TimedBridge
