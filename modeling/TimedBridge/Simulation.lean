import TimedBridge.Agenda
import TimedBridge.Bridge.Untimed
import TimedBridge.Generator
import TimedBridge.Memory
import TimedBridge.Simulation.Report

/-!
A simulation: one bridge between a traffic generator and a memory, driven by an agenda of events. The
generator issues its accesses as early as their ticks and the bridge allow; what the memory has taken
comes due after its latency; a retry that the memory owes comes due one tick after the refusal.
-/

namespace TimedBridge

/-- An event of a simulation. -/
inductive SimEvent where
  /-- The attempt to send in a direction comes due. -/
  | send (direction : Direction)
  /-- The generator may issue. -/
  | issue
  /-- The memory completes its oldest request. -/
  | complete
  /-- The memory sends the retry that it owes. -/
  | memoryRetry
  deriving DecidableEq, Repr

/-- Why a simulation failed. -/
inductive SimFault where
  | bridge (fault : BridgeFault)
  /-- No event is left although accesses or responses are. -/
  | stalled (tick : Tick) (unissued outstanding : Nat)
  deriving DecidableEq, Repr

/-- The message that reports a failed simulation. -/
def SimFault.message : SimFault → String
  | bridge fault => fault.message
  | stalled tick unissued outstanding =>
    "simulation stalled at tick " ++ toString tick.toNat ++ ": " ++ toString unissued ++
      " accesses unissued, " ++ toString outstanding ++ " responses outstanding"

/-- The state of a simulation. -/
structure Simulation where
  bridge : Bridge Generator Memory
  agenda : Agenda SimEvent := {}
  /-- The timed accesses on their way that will be answered, with the ticks of their issue. -/
  issuedAt : List (RequestId × Tick) := []
  /-- The tick for which an issue is scheduled because an access comes due then. -/
  armed : Option Tick := none
  report : Report := {}

namespace Simulation

/-- A step's new state, with a fault if it failed. -/
abbrev Step (α : Type) := Simulation × Except SimFault α

/-- The time of the simulation. -/
def now (s : Simulation) : Tick := s.agenda.now

/-- Schedules an event. -/
def schedule (s : Simulation) (event : SimEvent) (tick : Tick) : Simulation :=
  { s with agenda := s.agenda.schedule event tick }

/-- Schedules the attempts to send that a call asked for. -/
def scheduleAsked (s : Simulation) (effects : List Effect) : Simulation :=
  (Effect.asked effects).foldl (fun s ask => s.schedule (.send ask.2) ask.1) s

/-- Takes over what a call on the bridge has left behind. -/
def adopt {α : Type} (s : Simulation) (o : Outcome (Bridge Generator Memory) α) : Simulation :=
  { s with bridge := o.state }.scheduleAsked o.effects

/-- Makes a call on the bridge the whole of a step. -/
def finish {α : Type} (s : Simulation) (o : Call Generator Memory α) : Step α :=
  (s.adopt o, o.answer.mapError .bridge)

/-- The generator. -/
def generator (s : Simulation) : Except SimFault Generator :=
  match s.bridge.front.agent with
  | some g => .ok g
  | none => .error (.bridge (.unconnected .initiator))

/-- The memory. -/
def memory (s : Simulation) : Except SimFault Memory :=
  match s.bridge.back.agent with
  | some m => .ok m
  | none => .error (.bridge (.unconnected .target))

/-- The simulation with another generator. -/
def withGenerator (s : Simulation) (g : Generator) : Simulation :=
  { s with bridge := s.bridge.withInitiator g }

/-- The simulation with another memory. -/
def withMemory (s : Simulation) (m : Memory) : Simulation :=
  { s with bridge := s.bridge.withTarget m }

/-- The simulation with a changed report. -/
def count (s : Simulation) (f : Report → Report) : Simulation := { s with report := f s.report }

/-! ### Issuing accesses -/

/-- Schedules the issue of the next access, unless an issue no later than that is scheduled. -/
def armIssue (s : Simulation) : Step Unit :=
  match s.generator with
  | .error fault => (s, .error fault)
  | .ok g =>
    match g.nextTick? with
    | none => (s, .ok ())
    | some tick =>
      let tick := max tick s.now
      if s.armed.any (· ≤ tick) then (s, .ok ())
      else ({ s with armed := some tick }.schedule .issue tick, .ok ())

/-- Whether one of the ranges that the bridge serves covers the packet. -/
def routable (s : Simulation) (p : Packet) : Bool :=
  s.bridge.front.ranges.any (·.covers p.footprint)

/-- Submits a timed access; a refused one goes back to the generator. -/
def issueTimed (s : Simulation) (issue : Issue) : Step Unit :=
  let now := s.now
  let called := s.bridge.submit now issue.packet
  let s := s.adopt called
  match called.answer with
  | .error fault => (s, .error (.bridge fault))
  | .ok .accepted =>
    let s := s.count fun r => { r with issued := r.issued + 1 }
    (if issue.packet.expectsResponse then
      { s with issuedAt := s.issuedAt ++ [(issue.packet.id, now)] } else s, .ok ())
  | .ok (.refused packet) =>
    let s := s.count fun r => { r with refused := r.refused + 1 }
    match s.generator with
    | .error fault => (s, .error fault)
    | .ok g => (s.withGenerator (g.stall { issue with packet, tick := now }), .ok ())

/-- Makes an atomic access. -/
def issueAtomic (s : Simulation) (p : Packet) : Step Unit :=
  let called := s.bridge.atomic p
  let s := s.adopt (called.within Prod.fst)
  match called.answer with
  | .error fault => (s, .error (.bridge fault))
  | .ok latency =>
    (s.count fun r =>
      { r with atomic := r.atomic + 1, maxAtomicLatency := max r.maxAtomicLatency latency }, .ok ())

/-- Makes a functional access. -/
def issueFunctional (s : Simulation) (p : Packet) : Step Unit :=
  let called := s.bridge.functional p
  let s := s.adopt (called.within Prod.fst)
  match called.answer with
  | .error fault => (s, .error (.bridge fault))
  | .ok () => (s.count fun r => { r with functional := r.functional + 1 }, .ok ())

/-- Issues an access in its mode; one that no range covers is dropped. -/
def issueOne (s : Simulation) (issue : Issue) : Step Unit :=
  if s.routable issue.packet then
    match issue.mode with
    | .timing => s.issueTimed issue
    | .atomic => s.issueAtomic issue.packet
    | .functional => s.issueFunctional issue.packet
  else (s.count fun r => { r with unroutable := r.unroutable + 1 }, .ok ())

/-- Issues the accesses that are due one after another, at most `n`, until the bridge owes a
retry. -/
def issueDue : Nat → Simulation → Step Unit
  | 0, s => (s, .ok ())
  | n + 1, s =>
    match s.bridge.front.retry, s.generator with
    | .pending, _ => (s, .ok ())
    | .idle, .error fault => (s, .error fault)
    | .idle, .ok g =>
      match g.nextDue? s.now with
      | none => (s, .ok ())
      | some (issue, g) =>
        match (s.withGenerator g).issueOne issue with
        | (s, .error fault) => (s, .error fault)
        | (s, .ok ()) => issueDue n s

/-- The generator may issue: all accesses that are due go out, and the next one is scheduled. -/
def issue (s : Simulation) : Step Unit :=
  let s := if s.armed = some s.now then { s with armed := none } else s
  match s.generator with
  | .error fault => (s, .error fault)
  | .ok g =>
    match issueDue g.remaining s with
    | (s, .error fault) => (s, .error fault)
    | (s, .ok ()) => s.armIssue

/-! ### Looking after the agents -/

/-- Counts a response that has come back, if its access is known. -/
def countResponse (s : Simulation) (p : Packet) : Simulation :=
  match s.issuedAt.lookup p.id with
  | none => s
  | some issued =>
    let latency := flooredSub s.now issued
    { s with issuedAt := s.issuedAt.filter fun e => e.1 != p.id }.count fun r =>
      { r with
        completed := r.completed + 1
        totalLatency := cappedAdd r.totalLatency latency
        maxLatency := max r.maxLatency latency }

/-- Schedules what the memory owes: a completion for each request taken, and a retry. -/
def lookAfterMemory (s : Simulation) : Step Unit :=
  match s.memory with
  | .error fault => (s, .error fault)
  | .ok m =>
    let (accepted, m) := m.takeNewlyAccepted
    let (owesRetry, m) := m.takeOwedRetry
    let s := s.withMemory m
    let doneAt := cappedAdd s.now m.latency
    let s := (List.range accepted).foldl (fun s _ => s.schedule .complete doneAt) s
    (if owesRetry then s.schedule .memoryRetry (cappedAdd s.now 1) else s, .ok ())

/-- Counts the responses that the generator has got, and lets it issue after a retry. -/
def lookAfterGenerator (s : Simulation) : Step Unit :=
  match s.generator with
  | .error fault => (s, .error fault)
  | .ok g =>
    let (retried, g) := g.takeRetry
    let (responses, g) := g.takeResponses
    let s := responses.foldl countResponse (s.withGenerator g)
    (if retried then s.schedule .issue s.now else s, .ok ())

/-- Looks after both agents. -/
def lookAfter (s : Simulation) : Step Unit :=
  match s.lookAfterMemory with
  | (s, .error fault) => (s, .error fault)
  | (s, .ok ()) => s.lookAfterGenerator

/-! ### Running -/

/-- The memory completes its oldest request, and the bridge gets the answer. -/
def completeOldest (s : Simulation) : Step Unit :=
  match s.memory with
  | .error fault => (s, .error fault)
  | .ok m =>
    match m.completeNext with
    | (none, m) => (s.withMemory m, .ok ())
    | (some packet, m) =>
      let s := s.withMemory m
      s.finish (s.bridge.respond s.now packet)

/-- Carries out an event. -/
def dispatch (s : Simulation) : SimEvent → Step Unit
  | .send direction => s.finish (s.bridge.attempt s.now direction)
  | .issue => s.issue
  | .complete => s.completeOldest
  | .memoryRetry => s.finish (s.bridge.requestRetry s.now)

/-- Carries out the next event; the answer tells whether there was one. -/
def step (s : Simulation) : Step Bool :=
  match s.agenda.pop? with
  | none => (s, .ok false)
  | some (_, event, agenda) =>
    match { s with agenda }.dispatch event with
    | (s, .error fault) => (s, .error fault)
    | (s, .ok ()) =>
      match s.lookAfter with
      | (s, .error fault) => (s, .error fault)
      | (s, .ok ()) => (s, .ok true)

/-- The simulation of a scenario before its first event. -/
def ofScenario (sc : Scenario) : Except SimFault Simulation :=
  match Bridge.ofConfig "bridge" sc.bridge with
  | .error fault => .error (.bridge fault)
  | .ok bridge =>
    let latency := sc.bridge.clock.ticks sc.memory.latency
    let bridge := (bridge.bindInitiator (Generator.ofTraffic sc.traffic)).1
    let bridge := (bridge.bindTarget { latency, refuseEvery := sc.memory.refuseEvery }).1
    let started := bridge.start
    match started.answer with
    | .error fault => .error (.bridge fault)
    | .ok () =>
      match armIssue { bridge := started.state, report := { trafficTag := bridge.front.tag } } with
      | (_, .error fault) => .error fault
      | (s, .ok ()) => .ok s

/-- The report of a simulation that has no event left. -/
def conclude (s : Simulation) : Except SimFault Report :=
  match s.generator, s.memory with
  | .error fault, _ => .error fault
  | .ok g, memory =>
    if 0 < g.remaining ∨ 0 < s.bridge.front.reserved then
      .error (.stalled s.now g.remaining s.bridge.front.reserved)
    else
      memory.map fun m =>
        { s.report with retries := g.retries, memoryRefusals := m.refusals, finalTick := s.now }

/-- Runs a simulation for at most `n` events: the report or fault if it has ended by then. -/
def run? : Nat → Simulation → Option (Except SimFault Report)
  | 0, _ => none
  | n + 1, s =>
    match s.step with
    | (_, .error fault) => some (.error fault)
    | (s, .ok false) => some s.conclude
    | (s, .ok true) => run? n s

end Simulation

/-- Simulates a scenario for at most `n` events. -/
def Scenario.simulate? (n : Nat) (sc : Scenario) : Option (Except SimFault Report) :=
  match Simulation.ofScenario sc with
  | .error fault => some (.error fault)
  | .ok s => s.run? n

end TimedBridge
