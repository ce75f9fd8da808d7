import TimedBridge.Proofs.Guise

/-!
Packets in another guise, with or without their labels: the tags that they get when they cross a bridge, and
the hints that are charged for the crossing. Nothing that a queue or a table does depends on any of these,
so each of their operations can be carried out before the change or after it.
-/

namespace TimedBridge

/-- A guise in which the labels of packets can be left out. -/
structure Rendering extends Guise where
  labelled : Bool

/-- A guise, with all labels. -/
def Guise.rendering (g : Guise) : Rendering := { toGuise := g, labelled := true }

namespace Rendering

variable (r : Rendering)

def tag (tag : TrafficTag) : TrafficTag := bif r.labelled then tag else 0

def hints (hints : Hints) : Hints := bif r.labelled then hints else .zero

def crossing (c : Crossing) : Crossing := { c with hints := r.hints c.hints }

def packet (p : Packet) : Packet :=
  { r.toGuise.packet p with
    tag := bif r.labelled then p.tag else p.tag.map fun _ => 0
    firstWordDelay := bif r.labelled then p.firstWordDelay else 0
    lastWordDelay := bif r.labelled then p.lastWordDelay else 0 }

def admission : Admission → Admission
  | .accepted => .accepted
  | .refused p => .refused (r.packet p)

def effect : Effect → Effect
  | .offer direction p taken => .offer direction (r.packet p) taken
  | .atomic p => .atomic (r.packet p)
  | .functional p => .functional (r.packet p)
  | .askSend direction tick => .askSend direction tick
  | .notifyRetry => .notifyRetry
  | .advertise ranges => .advertise ranges

def fault : BridgeFault → BridgeFault
  | .alreadyTagged id existing => .alreadyTagged (r.rename id) (r.tag existing)
  | .missingRequest id => .missingRequest (r.rename id)
  | .duplicateRequest id => .duplicateRequest (r.rename id)
  | other => other

/-- The answer of a call, which succeeds in every rendering or in none. -/
def answer {α β : Type} (f : α → β) : Except BridgeFault α → Except BridgeFault β
  | .ok a => .ok (f a)
  | .error e => .error (r.fault e)

def entry (e : Deferred) : Deferred := { e with packet := r.packet e.packet }

def queue (q : TransmitQueue) : TransmitQueue := { q with entries := q.entries.map r.entry }

/-! ### Packets -/

variable (p : Packet)

@[simp]
theorem expectsResponse_packet : (r.packet p).expectsResponse = p.expectsResponse := rfl

@[simp]
theorem id_packet : (r.packet p).id = r.rename p.id := rfl

@[simp]
theorem isSome_tag_packet : (r.packet p).tag.isSome = p.tag.isSome := by
  obtain ⟨g, labelled⟩ := r
  cases labelled with
  | true => rfl
  | false => exact Option.isSome_map

theorem charge_packet (c : Crossing) : (r.crossing c).charge (r.packet p) = r.packet (c.charge p) := by
  obtain ⟨g, labelled⟩ := r
  rw [Crossing.charge, Crossing.charge, crossing, hints]
  cases labelled <;> cases c.hints <;> rfl

theorem withTag_packet (tag : TrafficTag) :
    (r.packet p).withTag (r.tag tag) = r.answer r.packet (p.withTag tag) := by
  obtain ⟨g, labelled⟩ := r
  rw [Packet.withTag, Packet.withTag]
  cases htag : p.tag <;> cases labelled <;> simp [packet, htag, answer, fault, Rendering.tag, Guise.packet]

/-! ### Queues -/

variable (q : TransmitQueue) (now ready tick : Tick)

@[simp]
theorem size_queue : (r.queue q).size = q.size := List.length_map ..

@[simp]
theorem isFull_queue : (r.queue q).isFull = q.isFull := by
  rw [TransmitQueue.isFull, size_queue]
  rfl

@[simp]
theorem isEmpty_queue : (r.queue q).isEmpty = q.isEmpty := List.isEmpty_map ..

theorem arm_queue : (r.queue q).arm tick = (q.arm tick).recounted r.queue r.effect id := by
  rw [TransmitQueue.arm, TransmitQueue.arm]
  by_cases hscheduled : q.sendScheduled
  · rw [if_pos hscheduled, if_pos (by exact hscheduled)]
    rfl
  · rw [if_neg hscheduled, if_neg (by exact hscheduled)]
    rfl

theorem push_queue :
    (r.queue q).push (r.packet p) ready =
      (q.push p ready).recounted r.queue r.effect (r.answer id) := by
  rw [TransmitQueue.push, TransmitQueue.push, isFull_queue, isEmpty_queue, arm_queue]
  cases q.isFull with
  | true => rfl
  | false =>
    cases q.isEmpty with
    | true => simp [Outcome.recounted, queue, entry, answer]
    | false => simp [Outcome.recounted, queue, entry, answer]

theorem armForHead_queue :
    (r.queue q).armForHead now = (q.armForHead now).recounted r.queue r.effect id := by
  rw [TransmitQueue.armForHead, TransmitQueue.armForHead]
  cases hentries : q.entries with
  | nil => simp [queue, hentries, Outcome.recounted]
  | cons head rest =>
    rw [← arm_queue]
    simp [queue, hentries, entry]

/-- A queue that is offered to an agent in another rendering comes to the same end, if the agent answers
the same. -/
theorem trySend_queue {π π' : Type} {see : π → π'} {offer : π → Packet → π × Admission}
    {offer' : π' → Packet → π' × Admission}
    (hoffer : ∀ agent p, offer' (see agent) (r.packet p) =
      (see (offer agent p).1, r.admission (offer agent p).2)) (agent : π) :
    (r.queue q).trySend now (see agent) offer' =
      (q.trySend now agent offer).recounted (fun sent => (r.queue sent.1, see sent.2)) r.effect id := by
  rw [TransmitQueue.trySend, TransmitQueue.trySend]
  cases hentries : q.entries with
  | nil => simp [queue, hentries, Outcome.recounted]
  | cons head rest =>
    have hmapped : (r.queue q).entries = r.entry head :: rest.map r.entry := by
      rw [queue, hentries]
      rfl
    rw [hmapped]
    by_cases hearly : now < head.ready
    · simp only [show now < (r.entry head).ready from hearly, hearly, if_true]
      rw [show (r.entry head).ready = head.ready from rfl, arm_queue]
      rfl
    · simp only [show ¬ now < (r.entry head).ready from hearly, hearly, if_false]
      rw [show (r.entry head).packet = r.packet head.packet from rfl, hoffer]
      rcases offer agent head.packet with ⟨agent', _ | packet⟩
      · have hrest := r.armForHead_queue { q with entries := rest } now
        simp only [admission]
        rw [show { r.queue q with entries := rest.map r.entry } =
          r.queue { q with entries := rest } from rfl, hrest]
        rfl
      · rfl

theorem takeRetry_queue : (r.queue q).takeRetry = r.answer r.queue q.takeRetry := by
  rw [TransmitQueue.takeRetry, TransmitQueue.takeRetry]
  by_cases hawaiting : q.awaitingRetry
  · rw [if_pos hawaiting, if_pos (by exact hawaiting)]
    rfl
  · rw [if_neg hawaiting, if_neg (by exact hawaiting)]
    rfl

/-! ### Tables -/

variable (t : RequestTable) (id : RequestId) (route : Route)

theorem save_table : (r.table t).save (r.rename id) route = r.answer r.table (t.save id route) := by
  rw [RequestTable.save, RequestTable.save]
  by_cases hwaiting : t.contains id
  · rw [dif_pos hwaiting, dif_pos (by rwa [r.contains_table])]
    rfl
  · rw [dif_neg hwaiting, dif_neg (by rwa [r.contains_table])]
    simp [answer, Guise.table, Guise.keyed]

theorem take_table :
    (r.table t).take (r.rename id) =
      r.answer (fun taken => (taken.1, r.table taken.2)) (t.take id) := by
  rw [RequestTable.take, RequestTable.take, r.route?_table]
  cases t.route? id with
  | none => rfl
  | some route =>
    have hleft := r.filter_keyed t.entries id
    simp [answer, Guise.table, hleft]

end Rendering

end TimedBridge
