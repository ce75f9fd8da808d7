import Mathlib.Data.List.Forall2
import TimedBridge.Proofs.Packet.Overwritten
import TimedBridge.Proofs.TransmitQueue.Calls

/-!
The packets that a queue passes on. Whatever happens to a queue, what waits before and what enters are
what leaves and what waits after, in this order (`TransmitQueue.Passes`); a functional access may
overwrite bytes of what waits, and an agent that hands back another packet than it was offered breaks
the order. What waits keeps its identity and its tick (`TransmitQueue.waiting`).
-/

namespace TimedBridge

/-! ### Packets that leave -/

namespace Effect

/-- The packets that effects hand over to the agent at the end of a direction. -/
def departures (direction : Direction) (effects : List Effect) : List Packet :=
  (offers effects).filterMap fun offer =>
    if offer.1 = direction ∧ offer.2.2 = true then some offer.2.1 else none

variable {effects more : List Effect} {d : Direction}

theorem departures_append :
    departures d (effects ++ more) = departures d effects ++ departures d more := by
  rw [departures, offers_append, List.filterMap_append]
  rfl

theorem departures_of_no_offer (h : offers effects = []) : departures d effects = [] := by
  rw [departures, h]
  rfl

theorem departures_cons_taken (direction : Direction) (packet : Packet) :
    departures d (.offer direction packet true :: effects) =
      if direction = d then packet :: departures d effects else departures d effects := by
  by_cases h : direction = d
  · simp [departures, offers, h]
  · simp [departures, offers, h]

theorem departures_refused (direction : Direction) (packet : Packet) :
    departures d [.offer direction packet false] = [] := by
  simp [departures, offers]

end Effect

/-- A packet that waits, by its identity, and the tick from which it may leave. -/
structure Waiting where
  id : RequestId
  due : Tick

/-- A waiting packet by its identity. -/
def Deferred.waiting (e : Deferred) : Waiting := ⟨e.packet.id, e.ready⟩

namespace TransmitQueue

/-- The packets of a queue by their identities, with the ticks from which they may leave. -/
def waiting (q : TransmitQueue) : List Waiting := q.entries.map Deferred.waiting

variable {q q' : TransmitQueue} {access access' : Packet}

theorem departures_arm (q : TransmitQueue) (tick : Tick) (d : Direction) :
    Effect.departures d (q.arm tick).effects = [] :=
  Effect.departures_of_no_offer (offers_arm q tick)

theorem departures_armForHead (q : TransmitQueue) (now : Tick) (d : Direction) :
    Effect.departures d (q.armForHead now).effects = [] :=
  Effect.departures_of_no_offer (offers_armForHead q now)

theorem direction_armForHead (q : TransmitQueue) (now : Tick) :
    (q.armForHead now).state.direction = q.direction := by
  rw [armForHead]
  split
  · rfl
  · exact direction_arm ..

/-! ### Packets that wait -/

theorem packets_push (packet : Packet) (ready : Tick) (h : q.size < q.capacity) :
    (q.push packet ready).state.packets = q.packets ++ [packet] := by
  rw [packets, entries_push packet ready h, List.map_append]
  rfl

theorem offers_push (packet : Packet) (ready : Tick) :
    Effect.offers (q.push packet ready).effects = [] := by
  by_cases h : q.size < q.capacity
  · rw [push_of_room packet ready h]
    dsimp only
    split
    · exact offers_arm ..
    · rfl
  · rw [push_of_full packet ready (Nat.not_lt.1 h)]
    rfl

theorem overwritten_snoopEntries (access : Packet) (entries : List Deferred) :
    List.Forall₂ (Packet.Overwritten access.asWrite) (entries.map Deferred.packet)
      ((snoopEntries access entries).1.map Deferred.packet) := by
  induction entries with
  | nil => exact .nil
  | cons e rest ih =>
    have hmeeting := access.overwritten_snoop e.packet
    rw [snoopEntries]
    dsimp only
    split
    next => exact .cons hmeeting (List.forall₂_same.2 fun p _ => .refl _ p)
    next hserved =>
      rw [Packet.access_snoop (Bool.not_eq_true _ ▸ hserved)]
      exact .cons hmeeting ih

/-- A functional access leaves the waiting packets in their places. -/
theorem overwritten_snoop {served : Bool} (h : q.snoop access = (q', access', served)) :
    List.Forall₂ (Packet.Overwritten access.asWrite) q.packets q'.packets := by
  obtain rfl : { q with entries := (snoopEntries access q.entries).1 } = q' := congrArg Prod.fst h
  exact overwritten_snoopEntries access q.entries

theorem access_snoopEntries {entries : List Deferred}
    (h : (snoopEntries access entries).2.2 = false) :
    (snoopEntries access entries).2.1 = access := by
  induction entries with
  | nil => rfl
  | cons e rest ih =>
    rw [snoopEntries] at h ⊢
    dsimp only at h ⊢
    split at h
    next => contradiction
    next hserved =>
      rw [Packet.access_snoop (Bool.not_eq_true _ ▸ hserved)] at h
      rw [if_neg hserved, Packet.access_snoop (Bool.not_eq_true _ ▸ hserved)]
      exact ih h

/-- An access that no waiting packet serves goes on as it came. -/
theorem access_snoop (h : q.snoop access = (q', access', false)) : access' = access := by
  have hserved : (snoopEntries access q.entries).2.2 = false := congrArg (·.2.2) h
  have haccess : (snoopEntries access q.entries).2.1 = access' := congrArg (·.2.1) h
  exact haccess.symm.trans (access_snoopEntries hserved)

/-! ### Identities and ticks -/

theorem waiting_of_entries (h : q'.entries = q.entries) : q'.waiting = q.waiting := by
  rw [waiting, waiting, h]

theorem ids_waiting (q : TransmitQueue) : q.waiting.map Waiting.id = q.packets.map Packet.id := by
  rw [waiting, packets, List.map_map, List.map_map]
  rfl

theorem waiting_push (packet : Packet) (ready : Tick) (h : q.size < q.capacity) :
    (q.push packet ready).state.waiting = q.waiting ++ [⟨packet.id, ready⟩] := by
  rw [waiting, entries_push packet ready h, List.map_append]
  rfl

theorem waiting_snoopEntries (access : Packet) (entries : List Deferred) :
    (snoopEntries access entries).1.map Deferred.waiting = entries.map Deferred.waiting := by
  induction entries generalizing access with
  | nil => rfl
  | cons e rest ih =>
    have hid : (access.snoop e.packet).held.id = e.packet.id := by
      rw [(access.overwritten_snoop e.packet).rest]
    have he : Deferred.waiting ⟨(access.snoop e.packet).held, e.ready⟩ = e.waiting :=
      congrArg (fun id => Waiting.mk id e.ready) hid
    rw [snoopEntries]
    dsimp only
    split
    · rw [List.map_cons, List.map_cons, he]
    · rw [List.map_cons, List.map_cons, he, ih]

/-- A functional access may overwrite the bytes of what waits, but neither its identity nor its tick. -/
theorem waiting_snoop {served : Bool} (h : q.snoop access = (q', access', served)) :
    q'.waiting = q.waiting := by
  obtain rfl : { q with entries := (snoopEntries access q.entries).1 } = q' := congrArg Prod.fst h
  exact waiting_snoopEntries access q.entries

/-! ### What a queue passes on -/

/-- A queue passes packets on in a direction: what waits before and what enters are what leaves and what
waits after, in this order and with no bytes changed but by `writes`, if the agent that they go to is
`faithful`. -/
structure Passes (q : TransmitQueue) (d : Direction) (faithful : Prop) (writes entering : List Packet)
    (effects : List Effect) (q' : TransmitQueue) : Prop where
  direction : q'.direction = q.direction
  order : faithful → List.Forall₂ (Packet.Overwritten writes) (q.packets ++ entering)
    (Effect.departures d effects ++ q'.packets)

variable {d : Direction} {faithful : Prop} {writes entering : List Packet} {effects : List Effect}

/-- Packets that enter or leave do so without a change. -/
theorem Passes.of_eq (hdirection : q'.direction = q.direction)
    (h : faithful → q.packets ++ entering = Effect.departures d effects ++ q'.packets) :
    q.Passes d faithful writes entering effects q' := by
  refine ⟨hdirection, fun hfaithful => ?_⟩
  rw [h hfaithful]
  exact List.forall₂_same.2 fun p _ => .refl _ p

theorem Passes.rest (q : TransmitQueue) (h : Effect.departures d effects = []) :
    q.Passes d faithful writes [] effects q := by
  refine .of_eq rfl fun _ => ?_
  rw [h, List.append_nil]
  rfl

theorem passes_arm (q : TransmitQueue) (tick : Tick) :
    q.Passes d faithful writes [] (q.arm tick).effects (q.arm tick).state := by
  refine .of_eq (direction_arm q tick) fun _ => ?_
  rw [departures_arm, packets, packets, entries_arm, List.append_nil]
  rfl

theorem passes_push (packet : Packet) (ready : Tick) (h : q.size < q.capacity) :
    q.Passes d faithful writes [packet] (q.push packet ready).effects
      (q.push packet ready).state := by
  refine .of_eq (direction_push q packet ready) fun _ => ?_
  rw [Effect.departures_of_no_offer (offers_push ..), packets_push packet ready h]
  rfl

theorem passes_snoop {served : Bool} (h : q.snoop access = (q', access', served))
    (heffects : Effect.departures d effects = []) :
    q.Passes d faithful access.asWrite [] effects q' := by
  refine ⟨?_, fun _ => ?_⟩
  · rw [(alike_snoop h).shell]
  · rw [heffects, List.append_nil]
    exact overwritten_snoop h

variable {head : Deferred} {rest : List Deferred} {packet : Packet}

theorem passes_refused (h : q.entries = head :: rest) (hkept : faithful → packet = head.packet) :
    q.Passes d faithful writes [] [.offer q.direction head.packet false]
      { q with entries := ⟨packet, head.ready⟩ :: rest, awaitingRetry := true } := by
  refine .of_eq rfl fun hfaithful => ?_
  rw [Effect.departures_refused, packets, packets, h, hkept hfaithful, List.append_nil]
  rfl

theorem passes_departure (hd : q.direction = d) (h : q.entries = head :: rest) (now : Tick) :
    q.Passes d faithful writes []
      (.offer q.direction head.packet true :: ({ q with entries := rest }.armForHead now).effects)
      ({ q with entries := rest }.armForHead now).state := by
  refine .of_eq (direction_armForHead ..) fun _ => ?_
  rw [Effect.departures_cons_taken, if_pos hd, departures_armForHead, packets, packets, h,
    entries_armForHead, List.append_nil]
  rfl

/-- A departure concerns the queue's own direction. -/
theorem departures_departure (hd : q.direction ≠ d) (packet : Packet) (now : Tick) :
    Effect.departures d (.offer q.direction packet true ::
      ({ q with entries := rest }.armForHead now).effects) = [] := by
  rw [Effect.departures_cons_taken, if_neg hd, departures_armForHead]

end TransmitQueue

end TimedBridge
