import TimedBridge.Bridge.Config

/-!
A scenario: the settings of a bridge, the memory behind it, and the accesses that are made through it
in the order of issue.
-/

namespace TimedBridge

/-- What an access does. -/
inductive AccessKind where
  | read
  | write
  /-- A write that is never answered. -/
  | writeback
  deriving DecidableEq, Repr

/-- How an access is made. -/
inductive AccessMode where
  /-- Through the queues, in time. -/
  | timing
  /-- At once, for its latency. -/
  | atomic
  /-- At once, outside time. -/
  | functional
  deriving DecidableEq, Repr

/-- One access. -/
structure TrafficItem where
  kind : AccessKind
  address : Address
  size : UInt64 := 8
  /-- The tick from which the access may be issued. -/
  tick : Tick := 0
  mode : AccessMode := .timing
  /-- The byte that a write repeats over the access. -/
  fill : UInt8 := 0
  deriving DecidableEq, Repr

/-- The settings of the memory. -/
structure MemorySpec where
  latency : Cycles := 0
  /-- The memory refuses each timed request whose number this divides; zero refuses none. -/
  refuseEvery : UInt32 := 0
  deriving DecidableEq, Repr

/-- A whole simulation's input. -/
structure Scenario where
  bridge : BridgeConfig := {}
  memory : MemorySpec := {}
  traffic : List TrafficItem := []
  deriving DecidableEq, Repr

/-- The first access, with its position, that may be issued before the access ahead of it. -/
def firstUnordered? (position : Nat) : List TrafficItem → Option (Nat × Tick)
  | a :: b :: rest =>
    if b.tick < a.tick then some (position + 1, b.tick)
    else firstUnordered? (position + 1) (b :: rest)
  | _ => none

end TimedBridge
