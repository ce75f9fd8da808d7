import TimedBridge.Bridge.Config
import TimedBridge.Json.Record
import TimedBridge.Json.Value

/-!
The settings of a bridge as JSON. Settings that are not given have their defaults; both bounds of a
range have to be given, in any order, and keys without a meaning are skipped.
-/

namespace TimedBridge

open Json

/-- How a range is read. -/
def AddressRange.shape : Shape AddressRange where
  name := "AddrRange"
  strict := false
  blank := ⟨0, 0⟩
  fields := [
    .of "start" .word64 (fun r first => { r with first }) true,
    .of "end" .word64 (fun r last => { r with last }) true]

/-- How a range is written. -/
def AddressRange.toJson (r : AddressRange) : Json :=
  .object [("start", .number r.first.toNat), ("end", .number r.last.toNat)]

/-- The names of the treatments of hints. -/
def Hints.names : List (String × Hints) :=
  [("zero", .zero), ("preserve", .preserve), ("accumulate", .accumulate)]

/-- The name of a treatment of hints. -/
def Hints.text : Hints → String
  | .zero => "zero"
  | .preserve => "preserve"
  | .accumulate => "accumulate"

namespace BridgeConfig

/-- How the settings of a bridge are read. -/
def shape : Shape BridgeConfig where
  name := "BridgeConfig"
  strict := false
  blank := {}
  fields := [
    .of "request_delay" .word64 (fun c requestDelay => { c with requestDelay }),
    .of "response_delay" .word64 (fun c responseDelay => { c with responseDelay }),
    .of "request_queue_capacity" .count (fun c requestCapacity => { c with requestCapacity }),
    .of "response_queue_capacity" .count (fun c responseCapacity => { c with responseCapacity }),
    .of "ranges" (.array AddressRange.shape.read) (fun c ranges => { c with ranges }),
    .of "traffic_tag" .word32 (fun c trafficTag => { c with trafficTag }),
    .of "tag_base_addr" .word64 (fun c tagBase => { c with tagBase }),
    .of "clock_period" .word64 (fun c clockPeriod => { c with clockPeriod }),
    .of "timing_hints" (.variant Hints.names) (fun c timingHints => { c with timingHints })]

/-- How the settings of a bridge are written. -/
def toJson (c : BridgeConfig) : Json := .object [
  ("request_delay", .number c.requestDelay.toNat),
  ("response_delay", .number c.responseDelay.toNat),
  ("request_queue_capacity", .number c.requestCapacity.toNat),
  ("response_queue_capacity", .number c.responseCapacity.toNat),
  ("ranges", .array (c.ranges.map AddressRange.toJson)),
  ("traffic_tag", .number c.trafficTag.toNat),
  ("tag_base_addr", .number c.tagBase.toNat),
  ("clock_period", .number c.clockPeriod.toNat),
  ("timing_hints", .string c.timingHints.text)]

/-- Reads the settings of a bridge from a text. -/
def ofText (text : String) : Except ReadFault BridgeConfig := Reader.run shape.read text

end BridgeConfig

end TimedBridge
