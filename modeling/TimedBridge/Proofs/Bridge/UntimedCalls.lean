import TimedBridge.Bridge.Untimed

/-!
What the calls outside the queues can come to: the start of a bridge (`Starting`), an atomic access
(`AtomicAccess`) and a functional access (`FunctionalAccess`). Each end gives the state, the effects
and the answer in full.
-/

namespace TimedBridge

namespace Bridge

variable {υ δ : Type}

/-- The packet with the bridge's tag. -/
def tagged (b : Bridge υ δ) (p : Packet) : Packet := { p with tag := some b.front.tag }

/-- The bridge with other entries in its two queues. -/
def withQueues (b : Bridge υ δ) (responses requests : TransmitQueue) : Bridge υ δ :=
  { b with
    front := { b.front with responses }
    back := { b.back with requests } }

/-! ### Starting -/

section Starting

variable [Initiator υ]

/-- The ends that starting a bridge can come to. -/
inductive Starting (b : Bridge υ δ) : Call υ δ Unit → Prop
  | unbound (side : Side) : Starting b ⟨b, [], .error (.unconnected side)⟩
  | started {agent : υ} (hagent : b.front.agent = some agent) :
      Starting b
        ⟨b.withInitiator (Initiator.advertise agent b.front.ranges),
          [.advertise b.front.ranges], .ok ()⟩

theorem starting_start (b : Bridge υ δ) : Starting b b.start := by
  rw [start]
  split
  next => exact .unbound .initiator
  next =>
    split
    next => exact .unbound .target
    next =>
      rw [advertise]
      split
      next => exact .unbound .initiator
      next agent hagent => exact .started hagent

end Starting

/-! ### Accesses -/

variable [Target δ]

/-- The ends that an atomic access can come to. -/
inductive AtomicAccess (b : Bridge υ δ) (p : Packet) : Access υ δ Tick → Prop
  | alreadyTagged {existing : TrafficTag} (htag : p.tag = some existing) :
      AtomicAccess b p ⟨(b, p), [], .error (.alreadyTagged p.id existing)⟩
  | unbound (htag : p.tag = none) (hagent : b.back.agent = none) :
      AtomicAccess b p ⟨(b, b.tagged p), [], .error (.unconnected .target)⟩
  | performed {agent agent' : δ} {answered : Packet} {latency : Tick} (htag : p.tag = none)
      (hagent : b.back.agent = some agent)
      (hperform : Target.atomic agent (b.tagged p) = (agent', answered, latency)) :
      AtomicAccess b p
        ⟨(b.withTarget agent', answered), [.atomic (b.tagged p)],
          .ok (cappedAdd b.front.crossing.delayTicks latency)⟩

theorem atomicAccess_atomic (b : Bridge υ δ) (p : Packet) : AtomicAccess b p (b.atomic p) := by
  rw [atomic]
  cases htag : p.tag with
  | some existing =>
    simp only [Packet.withTag, htag]
    exact .alreadyTagged htag
  | none =>
    simp only [Packet.withTag, htag, forwardAtomic]
    cases hagent : b.back.agent with
    | none => exact .unbound htag hagent
    | some agent => exact .performed htag hagent rfl

/-- The ends that a functional access can come to. -/
inductive FunctionalAccess (b : Bridge υ δ) (p : Packet) : Access υ δ Unit → Prop
  | alreadyTagged {existing : TrafficTag} (htag : p.tag = some existing) :
      FunctionalAccess b p ⟨(b, p), [], .error (.alreadyTagged p.id existing)⟩
  /-- A waiting response serves the access. -/
  | byResponse {responses : TransmitQueue} {served : Packet} (htag : p.tag = none)
      (hresponses : b.front.responses.snoop (b.tagged p) = (responses, served, true)) :
      FunctionalAccess b p ⟨(b.withQueues responses b.back.requests, served), [], .ok ()⟩
  /-- A waiting request serves the access. -/
  | byRequest {responses requests : TransmitQueue} {access served : Packet} (htag : p.tag = none)
      (hresponses : b.front.responses.snoop (b.tagged p) = (responses, access, false))
      (hrequests : b.back.requests.snoop access = (requests, served, true)) :
      FunctionalAccess b p ⟨(b.withQueues responses requests, served), [], .ok ()⟩
  /-- Nothing serves the access and there is no target to hand it to. -/
  | unbound {responses requests : TransmitQueue} {access left : Packet} (htag : p.tag = none)
      (hresponses : b.front.responses.snoop (b.tagged p) = (responses, access, false))
      (hrequests : b.back.requests.snoop access = (requests, left, false))
      (hagent : b.back.agent = none) :
      FunctionalAccess b p
        ⟨(b.withQueues responses requests, left), [], .error (.unconnected .target)⟩
  | performed {responses requests : TransmitQueue} {access left answered : Packet} {agent agent' : δ}
      (htag : p.tag = none)
      (hresponses : b.front.responses.snoop (b.tagged p) = (responses, access, false))
      (hrequests : b.back.requests.snoop access = (requests, left, false))
      (hagent : b.back.agent = some agent)
      (hperform : Target.functional agent left = (agent', answered)) :
      FunctionalAccess b p
        ⟨((b.withQueues responses requests).withTarget agent', answered), [.functional left], .ok ()⟩

theorem functionalAccess_functional (b : Bridge υ δ) (p : Packet) :
    FunctionalAccess b p (b.functional p) := by
  rw [functional]
  cases htag : p.tag with
  | some existing =>
    simp only [Packet.withTag, htag]
    exact .alreadyTagged htag
  | none =>
    simp only [Packet.withTag, htag, snoopResponses]
    rcases hresponses : b.front.responses.snoop (b.tagged p) with ⟨responses, access, _ | _⟩
    · rw [tagged] at hresponses
      simp only [hresponses, snoopRequests]
      rcases hrequests : b.back.requests.snoop access with ⟨requests, left, _ | _⟩
      · simp only [forwardFunctional]
        split
        next hagent => exact .unbound htag hresponses hrequests hagent
        next agent hagent => exact .performed htag hresponses hrequests hagent rfl
      · exact .byRequest htag hresponses hrequests
    · rw [tagged] at hresponses
      simp only [hresponses]
      exact .byResponse htag hresponses

end Bridge

end TimedBridge
