import TimedBridge.AddressRange

/-!
Memory requests and responses. A request and its response are one packet before and after `respond`
and share an identity. `Hints` is the treatment of a packet's two word-delay hints when it crosses a
bridge.
-/

namespace TimedBridge

/-- What a packet asks for or answers. -/
inductive Command where
  | readRequest
  | writeRequest
  /-- A dirty line written back; it is never answered. -/
  | writeback
  | readResponse
  | writeResponse
  deriving DecidableEq, Repr

namespace Command

/-- Whether the command is a request. -/
def isRequest : Command → Bool
  | readRequest | writeRequest | writeback => true
  | readResponse | writeResponse => false

/-- Whether the command requires an answer. -/
def needsResponse : Command → Bool
  | readRequest | writeRequest => true
  | writeback | readResponse | writeResponse => false

/-- Whether the command carries bytes. -/
def hasData : Command → Bool
  | writeRequest | writeback | readResponse => true
  | readRequest | writeResponse => false

/-- The answer to a request that requires one. -/
def response? : Command → Option Command
  | readRequest => some readResponse
  | writeRequest => some writeResponse
  | writeback | readResponse | writeResponse => none

end Command

/-- A memory request or response. Its data need not be as long as its size. -/
structure Packet where
  id : RequestId
  command : Command
  address : Address
  size : UInt64
  data : Option (List UInt8) := none
  source : Route
  destination : Option Route := none
  /-- Another agent has taken over the duty to answer. -/
  inhibited : Bool := false
  tag : Option TrafficTag := none
  firstWordDelay : Tick := 0
  lastWordDelay : Tick := 0
  deriving DecidableEq, Repr

namespace Packet

/-- A read request. -/
def read (id : RequestId) (address : Address) (size : UInt64) (source : Route) : Packet :=
  { id, command := .readRequest, address, size, source }

/-- A request that carries bytes, of the size of its bytes. -/
def carrying (command : Command) (id : RequestId) (address : Address) (data : List UInt8)
    (source : Route) : Packet :=
  { id, command, address, size := UInt64.ofNat data.length, data := some data, source }

/-- A write request. -/
def write : RequestId → Address → List UInt8 → Route → Packet := carrying .writeRequest

/-- A writeback. -/
def writeback : RequestId → Address → List UInt8 → Route → Packet := carrying .writeback

/-- Whether the packet is a response. -/
def isResponse (p : Packet) : Bool := !p.command.isRequest

/-- Whether an answer to the packet will come back the way it went. -/
def expectsResponse (p : Packet) : Bool := p.command.needsResponse && !p.inhibited

/-- The addresses that the packet touches. -/
def footprint (p : Packet) : AddressRange := .ofSpan p.address p.size

/-- Turns a request into its response; the answer to a write carries no bytes. -/
def respond (p : Packet) : Packet :=
  let command := p.command.response?.getD p.command
  { p with command, data := if command = .writeResponse then none else p.data }

end Packet

/-- What becomes of a packet's word-delay hints when it crosses a bridge. -/
inductive Hints where
  /-- Both hints are cleared. -/
  | zero
  /-- Both hints stay as they are. -/
  | preserve
  /-- The delay of the crossing is added to both hints. -/
  | accumulate
  deriving DecidableEq, Repr

/-- Charges a packet's hints for a crossing that takes `delay` ticks. -/
def Hints.charge (h : Hints) (delay : Tick) (p : Packet) : Packet :=
  match h with
  | .zero => { p with firstWordDelay := 0, lastWordDelay := 0 }
  | .preserve => p
  | .accumulate =>
    { p with
      firstWordDelay := cappedAdd p.firstWordDelay delay
      lastWordDelay := cappedAdd p.lastWordDelay delay }

end TimedBridge
