import TimedBridge.Clock
import TimedBridge.Packet

/-!
The settings of a bridge and what a bridge does not accept: a queue without slots, a clock without a
period, a range whose bounds are out of order.
-/

namespace TimedBridge

/-- The settings of a bridge. -/
structure BridgeConfig where
  /-- How long a request takes to cross. -/
  requestDelay : Cycles := 1
  /-- How long a response takes to cross. -/
  responseDelay : Cycles := 1
  requestCapacity : UInt64 := 16
  /-- The number of responses for which slots can be reserved at a time. -/
  responseCapacity : UInt64 := 16
  /-- The ranges that the bridge serves. -/
  ranges : List AddressRange := [.all]
  /-- The tag that every request gets when it crosses. -/
  trafficTag : TrafficTag := 0
  /-- The address that goes with the tag. -/
  tagBase : Address := 0
  clockPeriod : Tick := 1
  timingHints : Hints := .accumulate
  deriving DecidableEq, Repr

namespace BridgeConfig

/-- Checks the ranges in order. -/
def checkRanges : List AddressRange → Except ConfigFault Unit
  | [] => .ok ()
  | r :: rest => if r.last < r.first then .error (.invertedRange r.first r.last) else checkRanges rest

/-- The first fault of the settings, if there is one. -/
def validate (c : BridgeConfig) : Except ConfigFault Unit :=
  if c.requestCapacity = 0 then .error (.zeroCapacity .request)
  else if c.responseCapacity = 0 then .error (.zeroCapacity .response)
  else if c.clockPeriod = 0 then .error .zeroClockPeriod
  else checkRanges c.ranges

/-- The clock that times the bridge. -/
def clock (c : BridgeConfig) : Clock := .ofPeriod c.clockPeriod

end BridgeConfig

end TimedBridge
