/-!
The two directions of travel across a bridge and the two sides of a bridge, with the words that
reports and messages use for them.
-/

namespace TimedBridge

/-- A direction of travel: requests go from the initiator to the target, responses come back. -/
inductive Direction where
  | request
  | response
  deriving DecidableEq, Repr

/-- The word for a direction in messages. -/
def Direction.text : Direction → String
  | .request => "request"
  | .response => "response"

/-- A side of a bridge, named by the agent that it faces. -/
inductive Side where
  | initiator
  | target
  deriving DecidableEq, Repr

/-- The word for a side in messages. -/
def Side.text : Side → String
  | .initiator => "upstream"
  | .target => "downstream"

end TimedBridge
