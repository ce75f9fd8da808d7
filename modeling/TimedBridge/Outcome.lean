import TimedBridge.Packet

/-!
What a call on a bridge leaves behind: the new state, what the call did to the world around it in
order, and its answer. A failed call has a state too, so nothing about it is left open.
-/

namespace TimedBridge

/-- Something that a call did to the world around the bridge. -/
inductive Effect where
  /-- Asked the host for an attempt to send at a tick. -/
  | askSend (direction : Direction) (tick : Tick)
  /-- Offered a packet to the agent that the direction leads to, which took or refused it. -/
  | offer (direction : Direction) (packet : Packet) (taken : Bool)
  /-- Told the initiator that it may submit again. -/
  | notifyRetry
  /-- Told the initiator which ranges the bridge serves. -/
  | advertise (ranges : List AddressRange)
  /-- Handed an atomic access to the target. -/
  | atomic (packet : Packet)
  /-- Handed a functional access to the target. -/
  | functional (packet : Packet)
  deriving DecidableEq, Repr

/-- The attempts to send that were asked for, in order. -/
def Effect.asked (effects : List Effect) : List (Tick × Direction) :=
  effects.filterMap fun
    | .askSend direction tick => some (tick, direction)
    | _ => none

/-- The state after a call, the call's effects in order, and its answer. -/
structure Outcome (σ α : Type) where
  state : σ
  effects : List Effect
  answer : α

namespace Outcome

variable {σ τ α β : Type}

/-- The outcome with its state put into a larger one. -/
def within (o : Outcome σ α) (f : σ → τ) : Outcome τ α := ⟨f o.state, o.effects, o.answer⟩

/-- The outcome with effects before its own. -/
def after (o : Outcome σ α) (effects : List Effect) : Outcome σ α :=
  { o with effects := effects ++ o.effects }

end Outcome

end TimedBridge
