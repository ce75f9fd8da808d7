import TimedBridge.Bridge.Timed

/-!
Accesses outside the queues. An atomic access goes to the target at once and comes back with its
latency. A functional access first looks at the responses and then at the requests that are on their
way, and goes to the target if none of them serves it. Both are tagged like timed requests. The
state of these calls holds the bridge and the access.
-/

namespace TimedBridge

namespace Bridge

variable {υ δ : Type}

/-- The outcome of an access outside the queues: the access comes back with the bridge. -/
abbrev Access (υ δ α : Type) := Outcome (Bridge υ δ × Packet) (Except BridgeFault α)

/-- Lets a functional access look at the waiting responses. -/
def snoopResponses (b : Bridge υ δ) (access : Packet) : Bridge υ δ × Packet × Bool :=
  let (responses, access, served) := b.front.responses.snoop access
  ({ b with front := { b.front with responses } }, access, served)

/-- Lets a functional access look at the waiting requests. -/
def snoopRequests (b : Bridge υ δ) (access : Packet) : Bridge υ δ × Packet × Bool :=
  let (requests, access, served) := b.back.requests.snoop access
  ({ b with back := { b.back with requests } }, access, served)

variable [Target δ]

/-- Hands an atomic access to the target and gives the target's latency. -/
def forwardAtomic (b : Bridge υ δ) (access : Packet) : Access υ δ Tick :=
  match b.back.agent with
  | none => ⟨(b, access), [], .error (.unconnected .target)⟩
  | some agent =>
    let (agent, answered, latency) := Target.atomic agent access
    ⟨(b.withTarget agent, answered), [.atomic access], .ok latency⟩

/-- Hands a functional access to the target. -/
def forwardFunctional (b : Bridge υ δ) (access : Packet) : Access υ δ Unit :=
  match b.back.agent with
  | none => ⟨(b, access), [], .error (.unconnected .target)⟩
  | some agent =>
    let (agent, answered) := Target.functional agent access
    ⟨(b.withTarget agent, answered), [.functional access], .ok ()⟩

/-- An atomic access: its latency is the target's and the delay of the crossing. -/
def atomic (b : Bridge υ δ) (access : Packet) : Access υ δ Tick :=
  match access.withTag b.front.tag with
  | .error fault => ⟨(b, access), [], .error fault⟩
  | .ok tagged =>
    let forwarded := b.forwardAtomic tagged
    { forwarded with answer := forwarded.answer.map (cappedAdd b.front.crossing.delayTicks) }

/-- A functional access. -/
def functional (b : Bridge υ δ) (access : Packet) : Access υ δ Unit :=
  match access.withTag b.front.tag with
  | .error fault => ⟨(b, access), [], .error fault⟩
  | .ok tagged =>
    match b.snoopResponses tagged with
    | (b, served, true) => ⟨(b, served), [], .ok ()⟩
    | (b, access, false) =>
      match b.snoopRequests access with
      | (b, served, true) => ⟨(b, served), [], .ok ()⟩
      | (b, access, false) => b.forwardFunctional access

end Bridge

end TimedBridge
