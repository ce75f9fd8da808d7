import Mathlib.Data.List.Nodup
import TimedBridge.Bridge.Timed

/-!
Packets in another guise: under other identities, and with other bytes. A table holds identities only, and
finds under the new one what was kept under the old.
-/

namespace TimedBridge

/-- A way to change the identities and the bytes of packets, which keeps identities apart. -/
structure Guise where
  rename : RequestId → RequestId
  injective : Function.Injective rename
  recast : List UInt8 → List UInt8

/-- The outcome with its state, its effects and its answer put in other terms. -/
def Outcome.recounted {σ τ α β : Type} (o : Outcome σ α) (state : σ → τ) (effect : Effect → Effect)
    (answer : α → β) : Outcome τ β :=
  ⟨state o.state, o.effects.map effect, answer o.answer⟩

namespace Guise

variable (g : Guise)

def packet (p : Packet) : Packet :=
  { p with id := g.rename p.id, data := p.data.map g.recast }

def admission : Admission → Admission
  | .accepted => .accepted
  | .refused p => .refused (g.packet p)

def effect : Effect → Effect
  | .offer direction p taken => .offer direction (g.packet p) taken
  | .atomic p => .atomic (g.packet p)
  | .functional p => .functional (g.packet p)
  | .askSend direction tick => .askSend direction tick
  | .notifyRetry => .notifyRetry
  | .advertise ranges => .advertise ranges

def fault : BridgeFault → BridgeFault
  | .alreadyTagged id existing => .alreadyTagged (g.rename id) existing
  | .missingRequest id => .missingRequest (g.rename id)
  | .duplicateRequest id => .duplicateRequest (g.rename id)
  | other => other

/-- The answer of a call, which succeeds in every guise or in none. -/
def answer {α β : Type} (f : α → β) : Except BridgeFault α → Except BridgeFault β
  | .ok a => .ok (f a)
  | .error e => .error (g.fault e)

def entry (e : Deferred) : Deferred := { e with packet := g.packet e.packet }

def queue (q : TransmitQueue) : TransmitQueue := { q with entries := q.entries.map g.entry }

def keyed {α : Type} (e : RequestId × α) : RequestId × α := (g.rename e.1, e.2)

def table (t : RequestTable) : RequestTable where
  entries := t.entries.map g.keyed
  distinct := by
    have hrenamed := t.distinct.map g.injective
    rwa [List.map_map] at hrenamed ⊢

/-! ### Tables -/

/-- What is kept for an identity is found under its new name. -/
theorem lookup_keyed {α : Type} (l : List (RequestId × α)) (id : RequestId) :
    (l.map g.keyed).lookup (g.rename id) = l.lookup id := by
  induction l with
  | nil => rfl
  | cons e rest ih =>
    rw [List.map_cons, List.lookup_cons, List.lookup_cons, ih, keyed]
    by_cases heq : id = e.1
    · simp [heq]
    · rw [beq_eq_false_iff_ne.2 heq, beq_eq_false_iff_ne.2 (g.injective.ne heq)]

theorem filter_keyed {α : Type} (l : List (RequestId × α)) (id : RequestId) :
    ((l.map g.keyed).filter fun e => e.1 != g.rename id) =
      (l.filter fun e => e.1 != id).map g.keyed := by
  have hsame : ((fun e : RequestId × α => e.1 != g.rename id) ∘ g.keyed) = (·.1 != id) := by
    funext e
    simp only [Function.comp_apply, keyed, bne, Bool.beq_eq_decide_eq, g.injective.eq_iff]
  rw [List.filter_map, hsame]

variable (t : RequestTable) (id : RequestId)

theorem route?_table : (g.table t).route? (g.rename id) = t.route? id := g.lookup_keyed t.entries id

theorem contains_table : (g.table t).contains (g.rename id) = t.contains id := by
  rw [RequestTable.contains, RequestTable.contains, route?_table]

end Guise

end TimedBridge
