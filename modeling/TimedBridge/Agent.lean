import TimedBridge.Packet

/-!
The agents on the two sides of a bridge. The initiator submits requests and takes responses; the
target takes requests and answers them. Each is known by what it does when the bridge calls on it;
its state is a type of its own.
-/

namespace TimedBridge

/-- The answer to a timed offer: the packet is taken, or handed back until a retry. -/
inductive Admission where
  | accepted
  | refused (packet : Packet)
  deriving DecidableEq, Repr

/-- The agent that submits requests. -/
class Initiator (υ : Type) where
  /-- Offers a response. -/
  offerResponse : υ → Packet → υ × Admission
  /-- Tells the agent that it may submit again after a refusal. -/
  retryRequest : υ → υ
  /-- Tells the agent which ranges are served. -/
  advertise : υ → List AddressRange → υ

/-- The agent that answers requests. -/
class Target (δ : Type) where
  /-- Offers a request. -/
  offerRequest : δ → Packet → δ × Admission
  /-- Performs an access at once and gives its latency. -/
  atomic : δ → Packet → δ × Packet × Tick
  /-- Performs an access at once, outside time. -/
  functional : δ → Packet → δ × Packet

/-- An answer that hands back, if anything, the packet that was offered. -/
def Admission.KeepsPacket (offered : Packet) : Admission → Prop
  | .accepted => True
  | .refused packet => packet = offered

end TimedBridge
