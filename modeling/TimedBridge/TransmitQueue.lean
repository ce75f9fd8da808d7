import TimedBridge.Outcome
import TimedBridge.Agent
import TimedBridge.Packet.Snoop
import TimedBridge.Fault

/-!
The queue of one direction: a bounded first-in first-out list of packets, each with the tick from
which it may leave. The queue sees to it that an attempt to send is scheduled when one is needed, and
only one. Only the head is ever offered; a refused head stays where it is and waits for the agent's
retry.
-/

namespace TimedBridge

/-- A packet and the tick from which it may leave. -/
structure Deferred where
  packet : Packet
  ready : Tick
  deriving DecidableEq, Repr

/-- The packets of one direction that wait to leave, the next one first. -/
structure TransmitQueue where
  direction : Direction
  capacity : Nat
  entries : List Deferred := []
  /-- An attempt to send is scheduled with the host. -/
  sendScheduled : Bool := false
  /-- The head was refused and the agent owes a retry. -/
  awaitingRetry : Bool := false
  deriving DecidableEq, Repr

namespace TransmitQueue

/-- The number of packets in the queue. -/
def size (q : TransmitQueue) : Nat := q.entries.length

/-- Whether no packet waits. -/
def isEmpty (q : TransmitQueue) : Bool := q.entries.isEmpty

/-- Whether no further packet fits. -/
def isFull (q : TransmitQueue) : Bool := q.capacity ≤ q.size

/-- The packets in the order of departure. -/
def packets (q : TransmitQueue) : List Packet := q.entries.map Deferred.packet

/-- Asks for an attempt to send at `tick`, unless one is scheduled already. -/
def arm (q : TransmitQueue) (tick : Tick) : Outcome TransmitQueue Unit :=
  if q.sendScheduled then ⟨q, [], ()⟩
  else ⟨{ q with sendScheduled := true }, [.askSend q.direction tick], ()⟩

/-- Appends a packet that may leave from `ready` on; the first packet asks for the attempt. -/
def push (q : TransmitQueue) (packet : Packet) (ready : Tick) :
    Outcome TransmitQueue (Except BridgeFault Unit) :=
  if q.isFull then ⟨q, [], .error (.queueOverflow q.direction q.capacity)⟩
  else
    let armed := if q.isEmpty then q.arm ready else ⟨q, [], ()⟩
    ⟨{ armed.state with entries := q.entries ++ [⟨packet, ready⟩] }, armed.effects, .ok ()⟩

/-- Notes that the scheduled attempt has come due. -/
def attemptDue (q : TransmitQueue) : TransmitQueue := { q with sendScheduled := false }

/-- Asks for the attempt that the head needs, no earlier than `now`. -/
def armForHead (q : TransmitQueue) (now : Tick) : Outcome TransmitQueue Unit :=
  match q.entries with
  | [] => ⟨q, [], ()⟩
  | head :: _ => q.arm (max head.ready now)

/-- Offers the head to an agent if it may leave now. The answer is the tick from which a packet that
was taken had been ready. -/
def trySend {π : Type} (q : TransmitQueue) (now : Tick) (agent : π)
    (offer : π → Packet → π × Admission) : Outcome (TransmitQueue × π) (Option Tick) :=
  match q.entries with
  | [] => ⟨(q, agent), [], none⟩
  | head :: rest =>
    if now < head.ready then
      let armed := q.arm head.ready
      ⟨(armed.state, agent), armed.effects, none⟩
    else
      match offer agent head.packet with
      | (agent, .accepted) =>
        let armed := { q with entries := rest }.armForHead now
        ⟨(armed.state, agent), .offer q.direction head.packet true :: armed.effects,
          some head.ready⟩
      | (agent, .refused packet) =>
        ⟨({ q with entries := ⟨packet, head.ready⟩ :: rest, awaitingRetry := true }, agent),
          [.offer q.direction head.packet false], none⟩

/-- Takes the agent's retry, which must be owed. -/
def takeRetry (q : TransmitQueue) : Except BridgeFault TransmitQueue :=
  if q.awaitingRetry then .ok { q with awaitingRetry := false }
  else .error (.spuriousRetry q.direction)

/-- Lets a functional access look at waiting packets one by one until it is served. -/
def snoopEntries (access : Packet) : List Deferred → List Deferred × Packet × Bool
  | [] => ([], access, false)
  | e :: rest =>
    let met := access.snoop e.packet
    let e := { e with packet := met.held }
    if met.served then (e :: rest, met.access.respond, true)
    else
      let (rest, access, served) := snoopEntries met.access rest
      (e :: rest, access, served)

/-- Lets a functional access look at the queue: the queue afterwards, the access, and whether it is
complete. -/
def snoop (q : TransmitQueue) (access : Packet) : TransmitQueue × Packet × Bool :=
  let (entries, access, served) := snoopEntries access q.entries
  ({ q with entries }, access, served)

end TransmitQueue

end TimedBridge
