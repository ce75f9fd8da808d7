import TimedBridge.Word
import TimedBridge.Json.Value

/-!
The report of a simulation: counts of accesses and times, as a table of lines and as JSON.
-/

namespace TimedBridge

/-- What a simulation has counted and measured. -/
structure Report where
  /-- Timed accesses let in by the bridge. -/
  issued : Nat := 0
  /-- Responses that came back. -/
  completed : Nat := 0
  atomic : Nat := 0
  functional : Nat := 0
  /-- Accesses outside the ranges that the bridge serves. -/
  unroutable : Nat := 0
  /-- Timed accesses handed back by the bridge. -/
  refused : Nat := 0
  /-- Retries sent by the bridge. -/
  retries : Nat := 0
  /-- Requests refused by the memory. -/
  memoryRefusals : Nat := 0
  totalLatency : Tick := 0
  maxLatency : Tick := 0
  maxAtomicLatency : Tick := 0
  trafficTag : UInt32 := 0
  finalTick : Tick := 0
  deriving DecidableEq, Repr

namespace Report

/-- The mean latency of the completed accesses, if there are any, rounded down. -/
def meanLatency? (r : Report) : Option Nat :=
  if r.completed = 0 then none else some (r.totalLatency.toNat / r.completed)

/-- The latency line's value. -/
def latencyText (r : Report) : String :=
  match r.meanLatency? with
  | some mean => "mean " ++ toString mean ++ ", max " ++ toString r.maxLatency.toNat
  | none => "n/a"

/-- The lines of the report. -/
def lines (r : Report) : List String := [
  "tag:              " ++ toString r.trafficTag.toNat,
  "issued:           " ++ toString r.issued,
  "completed:        " ++ toString r.completed,
  "atomic:           " ++ toString r.atomic,
  "functional:       " ++ toString r.functional,
  "unroutable:       " ++ toString r.unroutable,
  "refused:          " ++ toString r.refused,
  "retries:          " ++ toString r.retries,
  "memory refusals:  " ++ toString r.memoryRefusals,
  "latency:          " ++ r.latencyText,
  "atomic latency:   max " ++ toString r.maxAtomicLatency.toNat,
  "final tick:       " ++ toString r.finalTick.toNat]

/-- The report as text. -/
def text (r : Report) : String := "\n".intercalate r.lines

/-- The report as JSON. -/
def toJson (r : Report) : Json := .object [
  ("issued", .number r.issued),
  ("completed", .number r.completed),
  ("atomic", .number r.atomic),
  ("functional", .number r.functional),
  ("unroutable", .number r.unroutable),
  ("refused", .number r.refused),
  ("retries", .number r.retries),
  ("memory_refusals", .number r.memoryRefusals),
  ("total_latency", .number r.totalLatency.toNat),
  ("max_latency", .number r.maxLatency.toNat),
  ("max_atomic_latency", .number r.maxAtomicLatency.toNat),
  ("traffic_tag", .number r.trafficTag.toNat),
  ("final_tick", .number r.finalTick.toNat)]

end Report

end TimedBridge
