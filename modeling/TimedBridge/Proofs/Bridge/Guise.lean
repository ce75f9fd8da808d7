import TimedBridge.Proofs.Bridge.Rendering

/-!
A bridge in another guise, between agents of other types that answer as the bridge's own agents do
(`Look`). A guise is a rendering with all labels, so each timed call can be carried out before the change of
guise or after it (`Look.perform_bridge`), and what the guise hides of an access outside the queues cannot
be seen (`Look.Steady.bridge_perform`).
-/

namespace TimedBridge

/-- What a call answers, in a guise. -/
def Guise.reply (g : Guise) : Answer → Answer
  | .done => .done
  | .admission admission => .admission (g.admission admission)
  | .access p latency => .access (g.packet p) latency

/-- A guise, with agents of other types that do in it what the agents of a bridge do. -/
structure Look (υ υ' δ δ' : Type) [Initiator υ] [Initiator υ'] [Target δ] [Target δ'] extends Guise where
  initiator : υ → υ'
  target : δ → δ'
  offerResponse : ∀ agent p, Initiator.offerResponse (initiator agent) (toGuise.packet p) =
    (initiator (Initiator.offerResponse agent p).1,
      toGuise.admission (Initiator.offerResponse agent p).2)
  retryRequest : ∀ agent,
    Initiator.retryRequest (initiator agent) = initiator (Initiator.retryRequest agent)
  advertise : ∀ agent ranges,
    Initiator.advertise (initiator agent) ranges = initiator (Initiator.advertise agent ranges)
  offerRequest : ∀ agent p, Target.offerRequest (target agent) (toGuise.packet p) =
    (target (Target.offerRequest agent p).1, toGuise.admission (Target.offerRequest agent p).2)

namespace Look

variable {υ υ' δ δ' : Type} [Initiator υ] [Initiator υ'] [Target δ] [Target δ']
  (look : Look υ υ' δ δ')

def front (f : Front υ) : Front υ' :=
  { f with agent := f.agent.map look.initiator, responses := look.queue f.responses }

def back (b : Back δ) : Back δ' :=
  { b with agent := b.agent.map look.target, requests := look.queue b.requests }

def bridge (b : Bridge υ δ) : Bridge υ' δ' :=
  { b with front := look.front b.front, back := look.back b.back, table := look.table b.table }

/-- The outcome of a call in another guise. -/
def call {α β : Type} (f : α → β) (o : Call υ δ α) : Call υ' δ' β :=
  o.recounted look.bridge look.effect (look.answer f)

/-- A call in another guise. -/
def operation : Operation υ δ → Operation υ' δ' :=
  Operation.recast look.initiator look.target look.packet

/-- The target looks the same after an access outside the queues. -/
structure Steady : Prop where
  atomic : ∀ agent p, look.target (Target.atomic agent p).1 = look.target agent
  functional : ∀ agent p, look.target (Target.functional agent p).1 = look.target agent

/-! ### With all labels -/

def portrait : Portrait υ υ' δ δ' where
  toRendering := look.rendering
  initiator := look.initiator
  target := look.target
  offerResponse := look.offerResponse
  retryRequest := look.retryRequest
  advertise := look.advertise
  offerRequest := look.offerRequest

variable (b : Bridge υ δ) (now : Tick) (p : Packet)

/-- Every timed call can be carried out in either guise. -/
theorem perform_bridge {operation : Operation υ δ} (htimed : operation.isTimed = true) :
    (look.bridge b).perform now (look.operation operation) =
      look.call look.reply (b.perform now operation) :=
  look.portrait.perform_bridge b now htimed

variable {look}

theorem Steady.portrait (hsteady : look.Steady) : look.portrait.Steady :=
  ⟨hsteady.atomic, hsteady.functional⟩

theorem Steady.bridge_atomic (hsteady : look.Steady) :
    look.bridge (b.atomic p).state.1 = look.bridge b :=
  hsteady.portrait.bridge_atomic b p

/-- A functional access can be seen in the queues at most. -/
theorem Steady.bridge_functional (hsteady : look.Steady) :
    look.bridge (b.functional p).state.1 =
      if p.tag.isSome then look.bridge b
      else look.bridge (b.withQueues (b.snooped p).1 (b.snooped p).2) :=
  hsteady.portrait.bridge_functional b p

/-- An access that the guise overlooks leaves the bridge as it looks. -/
theorem Steady.bridge_perform (hsteady : look.Steady) {operation : Operation υ δ}
    (hoverlooked : look.Overlooks operation) :
    look.bridge (b.perform now operation).state = look.bridge b :=
  hsteady.portrait.bridge_perform b now hoverlooked

end Look

end TimedBridge
