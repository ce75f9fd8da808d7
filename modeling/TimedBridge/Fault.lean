import TimedBridge.Word
import TimedBridge.Direction

/-!
What can be wrong with a bridge's configuration and with a call on a bridge, each cause with the
message that reports it. A call that only meets back-pressure is refused instead; refusals are no
faults.
-/

namespace TimedBridge

/-- A word in lower-case hexadecimal, without leading zeros. -/
def hexText (w : UInt64) : String := "0x" ++ String.ofList (Nat.toDigits 16 w.toNat)

/-- What is wrong with a configuration. -/
inductive ConfigFault where
  /-- The queue of a direction has no slot. -/
  | zeroCapacity (direction : Direction)
  | zeroClockPeriod
  /-- A range ends before it begins. -/
  | invertedRange (first last : Address)
  deriving DecidableEq, Repr

/-- The message that reports a configuration fault. -/
def ConfigFault.message : ConfigFault → String
  | .zeroCapacity direction => direction.text ++ " queue capacity must be non-zero"
  | .zeroClockPeriod => "clock period must be non-zero"
  | .invertedRange first last =>
    "address range " ++ hexText first ++ "..=" ++ hexText last ++ " is inverted"

/-- The text of a request identity in messages. -/
def idText (id : RequestId) : String := "#" ++ toString id.toNat

/-- Why a call on a bridge failed. -/
inductive BridgeFault where
  /-- No agent is bound on a side that the call needs. -/
  | unconnected (side : Side)
  /-- A packet came to the tagging point with a tag on it. -/
  | alreadyTagged (id : RequestId) (existing : TrafficTag)
  /-- A response came for which no request is waiting. -/
  | missingRequest (id : RequestId)
  /-- A request came whose identity is already waiting for a response. -/
  | duplicateRequest (id : RequestId)
  /-- An agent signalled a retry that no refusal called for. -/
  | spuriousRetry (direction : Direction)
  /-- The initiator submitted although it is owed a retry. -/
  | requestDuringRetry
  /-- A packet was pushed into a full queue. -/
  | queueOverflow (direction : Direction) (capacity : Nat)
  /-- A response departed although no slot was reserved for it. -/
  | unreservedResponse
  /-- The configuration was rejected. -/
  | config (fault : ConfigFault)
  deriving DecidableEq, Repr

namespace BridgeFault

/-- The message that reports a fault. -/
def message : BridgeFault → String
  | unconnected side => "both ports of a bridge must be connected (" ++ side.text ++ " is not)"
  | alreadyTagged id existing =>
    "transaction " ++ idText id ++ " already carries traffic tag " ++ toString existing.toNat
  | missingRequest id => "response " ++ idText id ++ " has no saved request state"
  | duplicateRequest id => "request state for " ++ idText id ++ " is already saved"
  | spuriousRetry direction =>
    direction.text ++ " retry received with no refused handoff outstanding"
  | requestDuringRetry => "request received while a retry is pending"
  | queueOverflow direction capacity =>
    direction.text ++ " queue exceeded its capacity of " ++ toString capacity
  | unreservedResponse => "response departed with no reserved slot"
  | config fault => fault.message

/-- Whether an adjacent agent broke the protocol, as opposed to a fault of setup or bookkeeping. -/
def isProtocolViolation : BridgeFault → Bool
  | alreadyTagged .. | missingRequest _ | duplicateRequest _ | spuriousRetry _
  | requestDuringRetry => true
  | unconnected _ | queueOverflow .. | unreservedResponse | config _ => false

end BridgeFault

end TimedBridge
