import TimedBridge.Agent
import TimedBridge.Scenario

/-!
The traffic generator: the initiator that issues the accesses of a scenario in order, numbered from
one. An access that was refused goes back to the head, and nothing is issued until the bridge sends a
retry.
-/

namespace TimedBridge

/-- An access waiting to be issued. -/
structure Issue where
  packet : Packet
  /-- The tick from which it may be issued. -/
  tick : Tick
  mode : AccessMode
  deriving DecidableEq, Repr

/-- The route of the generator. -/
def generatorRoute : Route := 0

/-- The bytes that a write carries. -/
def TrafficItem.bytes (i : TrafficItem) : List UInt8 := List.replicate i.size.toNat i.fill

/-- The packet of an access under its number. -/
def TrafficItem.packet (i : TrafficItem) (id : RequestId) : Packet :=
  match i.kind with
  | .read => .read id i.address i.size generatorRoute
  | .write => .write id i.address i.bytes generatorRoute
  | .writeback => .writeback id i.address i.bytes generatorRoute

/-- The access of a scenario under its number. -/
def TrafficItem.issue (i : TrafficItem) (id : RequestId) : Issue :=
  { packet := i.packet id, tick := i.tick, mode := i.mode }

/-- The accesses of a scenario, numbered from `number` on. -/
def numberedIssues (number : Nat) : List TrafficItem → List Issue
  | [] => []
  | i :: rest => i.issue (UInt64.ofNat number) :: numberedIssues (number + 1) rest

/-- The initiator that issues the accesses of a scenario. -/
structure Generator where
  /-- The accesses not yet issued, the next one first. -/
  pending : List Issue := []
  /-- An access was refused and no retry has come yet. -/
  stalled : Bool := false
  /-- A retry has come that has not been looked at. -/
  retryReceived : Bool := false
  retries : Nat := 0
  /-- The responses that have not been looked at. -/
  responses : List Packet := []
  /-- The ranges that the bridge serves. -/
  ranges : List AddressRange := []
  deriving DecidableEq, Repr

namespace Generator

/-- The generator of a scenario's accesses. -/
def ofTraffic (traffic : List TrafficItem) : Generator := { pending := numberedIssues 1 traffic }

/-- Takes the next access if it may be issued now. -/
def nextDue? (g : Generator) (now : Tick) : Option (Issue × Generator) :=
  match g.stalled, g.pending with
  | false, issue :: rest =>
    if issue.tick ≤ now then some (issue, { g with pending := rest }) else none
  | _, _ => none

/-- Puts a refused access back at the head and stalls. -/
def stall (g : Generator) (issue : Issue) : Generator :=
  { g with stalled := true, pending := issue :: g.pending }

/-- The tick from which the next access may be issued, unless the generator is stalled. -/
def nextTick? (g : Generator) : Option Tick :=
  if g.stalled then none else g.pending.head?.map Issue.tick

/-- Whether a retry has come since the last look, and the generator after the look. -/
def takeRetry (g : Generator) : Bool × Generator :=
  (g.retryReceived, { g with retryReceived := false })

/-- The responses since the last look, and the generator after the look. -/
def takeResponses (g : Generator) : List Packet × Generator :=
  (g.responses, { g with responses := [] })

/-- The number of accesses not yet issued. -/
def remaining (g : Generator) : Nat := g.pending.length

end Generator

instance : Initiator Generator where
  offerResponse g packet := ({ g with responses := g.responses ++ [packet] }, .accepted)
  retryRequest g := { g with stalled := false, retryReceived := true, retries := g.retries + 1 }
  advertise g ranges := { g with ranges }

end TimedBridge
