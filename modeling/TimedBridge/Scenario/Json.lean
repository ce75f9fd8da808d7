import TimedBridge.Bridge.ConfigJson
import TimedBridge.Scenario

/-!
Scenarios as JSON. Settings that are not given have their defaults; an access has to say what it does
and where. A key that is no setting is a fault, except among the settings of the bridge, and so is an
access that may be issued before the one ahead of it.
-/

namespace TimedBridge

open Json

/-- The names of the kinds of access. -/
def AccessKind.names : List (String × AccessKind) :=
  [("read", .read), ("write", .write), ("writeback", .writeback)]

/-- The name of a kind of access. -/
def AccessKind.text : AccessKind → String
  | .read => "read"
  | .write => "write"
  | .writeback => "writeback"

/-- The names of the modes of access. -/
def AccessMode.names : List (String × AccessMode) :=
  [("timing", .timing), ("atomic", .atomic), ("functional", .functional)]

/-- The name of a mode of access. -/
def AccessMode.text : AccessMode → String
  | .timing => "timing"
  | .atomic => "atomic"
  | .functional => "functional"

/-- How an access is read. -/
def TrafficItem.shape : Shape TrafficItem where
  name := "TrafficItem"
  strict := true
  blank := { kind := .read, address := 0 }
  fields := [
    .of "kind" (.variant AccessKind.names) (fun i kind => { i with kind }) true,
    .of "addr" .word64 (fun i address => { i with address }) true,
    .of "size" .word64 (fun i size => { i with size }),
    .of "at" .word64 (fun i tick => { i with tick }),
    .of "mode" (.variant AccessMode.names) (fun i mode => { i with mode }),
    .of "fill" .byte (fun i fill => { i with fill })]

/-- How an access is written. -/
def TrafficItem.toJson (i : TrafficItem) : Json := .object [
  ("kind", .string i.kind.text),
  ("addr", .number i.address.toNat),
  ("size", .number i.size.toNat),
  ("at", .number i.tick.toNat),
  ("mode", .string i.mode.text),
  ("fill", .number i.fill.toNat)]

/-- How the settings of the memory are read. -/
def MemorySpec.shape : Shape MemorySpec where
  name := "MemorySpec"
  strict := true
  blank := {}
  fields := [
    .of "latency" .word64 (fun m latency => { m with latency }),
    .of "refuse_every" .word32 (fun m refuseEvery => { m with refuseEvery })]

/-- How the settings of the memory are written. -/
def MemorySpec.toJson (m : MemorySpec) : Json := .object [
  ("latency", .number m.latency.toNat),
  ("refuse_every", .number m.refuseEvery.toNat)]

/-- Why a scenario could not be loaded. -/
inductive ScenarioFault where
  /-- The text does not describe a scenario. -/
  | unreadable (fault : ReadFault)
  /-- The access at a position may be issued at a tick before the one ahead of it. -/
  | unordered (position : Nat) (tick : Tick)
  deriving DecidableEq

/-- The message that reports a scenario fault. -/
def ScenarioFault.message : ScenarioFault → String
  | .unreadable (.unfit misfit) => "invalid scenario: " ++ misfit.message
  | .unreadable (.flawed .malformed) => "invalid scenario: malformed text"
  | .unreadable (.flawed .truncated) => "invalid scenario: unexpected end of text"
  | .unordered position tick =>
    "traffic item " ++ toString position ++ " issues at tick " ++ toString tick.toNat ++
      ", before its predecessor"

namespace Scenario

/-- How a scenario is read. -/
def shape : Shape Scenario where
  name := "Scenario"
  strict := true
  blank := {}
  fields := [
    .of "bridge" BridgeConfig.shape.read (fun s bridge => { s with bridge }),
    .of "memory" MemorySpec.shape.read (fun s memory => { s with memory }),
    .of "traffic" (.array TrafficItem.shape.read) (fun s traffic => { s with traffic })]

/-- How a scenario is written. -/
def toJson (s : Scenario) : Json := .object [
  ("bridge", s.bridge.toJson),
  ("memory", s.memory.toJson),
  ("traffic", .array (s.traffic.map TrafficItem.toJson))]

/-- Reads a scenario from a text. -/
def ofText (text : String) : Except ScenarioFault Scenario :=
  match Reader.run shape.read text with
  | .error fault => .error (.unreadable fault)
  | .ok s =>
    match firstUnordered? 0 s.traffic with
    | some (position, tick) => .error (.unordered position tick)
    | none => .ok s

end Scenario

end TimedBridge
