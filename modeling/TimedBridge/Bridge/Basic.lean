import TimedBridge.Bridge.Config
import TimedBridge.TransmitQueue
import TimedBridge.RequestTable

/-!
The state of a bridge. The front faces the initiator: it lets requests in, one response slot reserved
for each request that will be answered, and holds the responses on their way back. The back faces the
target and holds the requests on their way there. Between them is the table of the requests that wait
for a response.
-/

namespace TimedBridge

/-- What a crossing in one direction costs. -/
structure Crossing where
  clock : Clock
  delay : Cycles
  hints : Hints

namespace Crossing

/-- The length of the crossing in ticks. -/
def delayTicks (c : Crossing) : Tick := c.clock.ticks c.delay

/-- The tick from which a packet that arrives at `now` may leave. -/
def readyAt (c : Crossing) (now : Tick) : Tick := c.clock.edgeAfter now c.delay

/-- Charges a packet's hints for the crossing. -/
def charge (c : Crossing) (p : Packet) : Packet := c.hints.charge c.delayTicks p

end Crossing

/-- Whether the initiator is owed a retry. -/
inductive RetryState where
  | idle
  | pending
  deriving DecidableEq, Repr

/-- The side of a bridge that faces the initiator. -/
structure Front (υ : Type) where
  name : String
  agent : Option υ := none
  /-- The crossing of requests. -/
  crossing : Crossing
  responses : TransmitQueue
  /-- The slots reserved for responses that have not departed. -/
  reserved : Nat := 0
  retry : RetryState := .idle
  tag : TrafficTag
  ranges : List AddressRange

/-- Whether no response slot is left to reserve. -/
def Front.slotsFull {υ : Type} (f : Front υ) : Bool := f.responses.capacity ≤ f.reserved

/-- The side of a bridge that faces the target. -/
structure Back (δ : Type) where
  name : String
  agent : Option δ := none
  /-- The crossing of responses. -/
  crossing : Crossing
  requests : TransmitQueue

/-- A bridge between an initiator and a target. -/
structure Bridge (υ δ : Type) where
  name : String
  front : Front υ
  back : Back δ
  /-- The requests that wait for a response. -/
  table : RequestTable := {}
  /-- The address that goes with the tag. -/
  tagBase : Address

/-- The outcome of a call on a bridge. -/
abbrev Call (υ δ α : Type) := Outcome (Bridge υ δ) (Except BridgeFault α)

namespace Bridge

variable {υ δ : Type}

/-- A bridge with the given settings and no agents. -/
def ofConfig (name : String) (c : BridgeConfig) : Except BridgeFault (Bridge υ δ) :=
  match c.validate with
  | .error fault => .error (.config fault)
  | .ok () => .ok {
      name
      front := {
        name := name ++ ".upstream"
        crossing := ⟨c.clock, c.requestDelay, c.timingHints⟩
        responses := { direction := .response, capacity := c.responseCapacity.toNat }
        tag := c.trafficTag
        ranges := c.ranges }
      back := {
        name := name ++ ".downstream"
        crossing := ⟨c.clock, c.responseDelay, c.timingHints⟩
        requests := { direction := .request, capacity := c.requestCapacity.toNat } }
      tagBase := c.tagBase }

/-- Binds an initiator; the one that was bound before is handed back. -/
def bindInitiator (b : Bridge υ δ) (agent : υ) : Bridge υ δ × Option υ :=
  ({ b with front := { b.front with agent := some agent } }, b.front.agent)

/-- Binds a target; the one that was bound before is handed back. -/
def bindTarget (b : Bridge υ δ) (agent : δ) : Bridge υ δ × Option δ :=
  ({ b with back := { b.back with agent := some agent } }, b.back.agent)

/-- Whether both agents are bound. -/
def isConnected (b : Bridge υ δ) : Bool := b.front.agent.isSome && b.back.agent.isSome

/-- The bridge with another front agent. -/
def withInitiator (b : Bridge υ δ) (agent : υ) : Bridge υ δ :=
  { b with front := { b.front with agent := some agent } }

/-- The bridge with another back agent. -/
def withTarget (b : Bridge υ δ) (agent : δ) : Bridge υ δ :=
  { b with back := { b.back with agent := some agent } }

variable [Initiator υ]

/-- Tells the initiator which ranges the bridge serves. -/
def advertise (b : Bridge υ δ) : Call υ δ Unit :=
  match b.front.agent with
  | none => ⟨b, [], .error (.unconnected .initiator)⟩
  | some agent =>
    ⟨b.withInitiator (Initiator.advertise agent b.front.ranges), [.advertise b.front.ranges], .ok ()⟩

/-- Starts the bridge: both agents must be bound, and the initiator is told the ranges. -/
def start (b : Bridge υ δ) : Call υ δ Unit :=
  if b.front.agent.isNone then ⟨b, [], .error (.unconnected .initiator)⟩
  else if b.back.agent.isNone then ⟨b, [], .error (.unconnected .target)⟩
  else b.advertise

end Bridge

end TimedBridge
