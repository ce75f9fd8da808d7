import TimedBridge.TransmitQueue
import TimedBridge.Proofs.Effect

/-!
What each call on a queue does to its entries and its two flags. A push appends, a snoop changes bytes
only, and an attempt to send comes to one of four ends (`Attempt`). No call changes the direction or
the capacity.
-/

namespace TimedBridge

namespace TransmitQueue

variable (q : TransmitQueue) (packet : Packet) (ready now tick : Tick)

/-! ### Asking for an attempt -/

theorem state_arm : (q.arm tick).state = { q with sendScheduled := true } := by
  rw [arm]
  split
  next h => rw [← h]
  next => rfl

theorem entries_arm : (q.arm tick).state.entries = q.entries := by
  rw [state_arm]

theorem direction_arm : (q.arm tick).state.direction = q.direction := by
  rw [state_arm]

theorem capacity_arm : (q.arm tick).state.capacity = q.capacity := by
  rw [state_arm]

/-- The attempt is asked for once: not again while one is scheduled. -/
theorem effects_arm :
    (q.arm tick).effects = if q.sendScheduled then [] else [.askSend q.direction tick] := by
  rw [arm]; split <;> rfl

theorem entries_armForHead : (q.armForHead now).state.entries = q.entries := by
  rw [armForHead]
  split
  · rfl
  · exact entries_arm ..

theorem capacity_armForHead : (q.armForHead now).state.capacity = q.capacity := by
  rw [armForHead]
  split
  · rfl
  · exact capacity_arm ..

theorem awaitingRetry_armForHead :
    (q.armForHead now).state.awaitingRetry = q.awaitingRetry := by
  rw [armForHead]
  split
  · rfl
  · rw [state_arm]

theorem offers_arm : Effect.offers (q.arm tick).effects = [] := by
  rw [effects_arm]; split <;> rfl

theorem notifications_arm : Effect.notifications (q.arm tick).effects = 0 := by
  rw [effects_arm]; split <;> rfl

theorem offers_armForHead : Effect.offers (q.armForHead now).effects = [] := by
  rw [armForHead]
  split
  · rfl
  · exact offers_arm ..

theorem notifications_armForHead : Effect.notifications (q.armForHead now).effects = 0 := by
  rw [armForHead]
  split
  · rfl
  · exact notifications_arm ..

/-! ### Entering -/

theorem isFull_iff : q.isFull = true ↔ q.capacity ≤ q.size := by
  rw [isFull, decide_eq_true_iff]

variable {q} in
/-- A push into a queue with room. -/
theorem push_of_room (h : q.size < q.capacity) :
    q.push packet ready =
      ⟨{ (if q.isEmpty then (q.arm ready).state else q) with entries := q.entries ++ [⟨packet, ready⟩] },
        if q.isEmpty then (q.arm ready).effects else [], .ok ()⟩ := by
  have hroom : q.isFull = false := by
    rw [← Bool.not_eq_true, isFull_iff]; omega
  rw [push, hroom]
  cases q.isEmpty <;> rfl

variable {q} in
/-- A push into a full queue leaves it as it is. -/
theorem push_of_full (h : q.capacity ≤ q.size) :
    q.push packet ready = ⟨q, [], .error (.queueOverflow q.direction q.capacity)⟩ := by
  rw [push, (isFull_iff q).2 h]; rfl

theorem direction_push : (q.push packet ready).state.direction = q.direction := by
  by_cases h : q.size < q.capacity
  · rw [push_of_room packet ready h]
    change (if q.isEmpty then (q.arm ready).state else q).direction = _
    split
    · exact direction_arm ..
    · rfl
  · rw [push_of_full packet ready (Nat.not_lt.1 h)]

theorem capacity_push : (q.push packet ready).state.capacity = q.capacity := by
  by_cases h : q.size < q.capacity
  · rw [push_of_room packet ready h]
    change (if q.isEmpty then (q.arm ready).state else q).capacity = _
    split
    · exact capacity_arm ..
    · rfl
  · rw [push_of_full packet ready (Nat.not_lt.1 h)]

variable {q} in
theorem awaitingRetry_push (h : q.size < q.capacity) :
    (q.push packet ready).state.awaitingRetry = q.awaitingRetry := by
  rw [push_of_room packet ready h]
  dsimp only
  split
  · rw [state_arm]
  · rfl

variable {q} in
theorem entries_push (h : q.size < q.capacity) :
    (q.push packet ready).state.entries = q.entries ++ [⟨packet, ready⟩] := by
  rw [push_of_room packet ready h]

variable {q} in
theorem size_push (h : q.size < q.capacity) : (q.push packet ready).state.size = q.size + 1 := by
  rw [size, entries_push packet ready h, List.length_append]; rfl

theorem notifications_push : Effect.notifications (q.push packet ready).effects = 0 := by
  by_cases h : q.size < q.capacity
  · rw [push_of_room packet ready h]
    dsimp only
    split
    · exact notifications_arm ..
    · rfl
  · rw [push_of_full packet ready (Nat.not_lt.1 h)]; rfl

/-! ### Leaving -/

/-- The ends that an attempt to send can come to. -/
inductive Attempt {π : Type} (q : TransmitQueue) (now : Tick) (agent : π)
    (offer : π → Packet → π × Admission) : Outcome (TransmitQueue × π) (Option Tick) → Prop
  /-- Nothing waits. -/
  | empty (h : q.entries = []) : Attempt q now agent offer ⟨(q, agent), [], none⟩
  /-- The head may not leave yet. -/
  | early {head : Deferred} {rest : List Deferred} (h : q.entries = head :: rest)
      (hearly : now < head.ready) :
      Attempt q now agent offer
        ⟨((q.arm head.ready).state, agent), (q.arm head.ready).effects, none⟩
  /-- The agent takes the head. -/
  | taken {head : Deferred} {rest : List Deferred} {agent' : π} (h : q.entries = head :: rest)
      (hdue : head.ready ≤ now) (hoffer : offer agent head.packet = (agent', .accepted)) :
      Attempt q now agent offer
        ⟨(({ q with entries := rest }.armForHead now).state, agent'),
          .offer q.direction head.packet true :: ({ q with entries := rest }.armForHead now).effects,
          some head.ready⟩
  /-- The agent refuses the head. -/
  | refused {head : Deferred} {rest : List Deferred} {agent' : π} {packet : Packet}
      (h : q.entries = head :: rest) (hdue : head.ready ≤ now)
      (hoffer : offer agent head.packet = (agent', .refused packet)) :
      Attempt q now agent offer
        ⟨({ q with entries := ⟨packet, head.ready⟩ :: rest, awaitingRetry := true }, agent'),
          [.offer q.direction head.packet false], none⟩

theorem attempt_trySend {π : Type} (agent : π) (offer : π → Packet → π × Admission) :
    Attempt q now agent offer (q.trySend now agent offer) := by
  rw [trySend]
  split
  next h => exact .empty h
  next head rest h =>
    split
    next hearly => exact .early h hearly
    next hdue =>
      split
      next agent' hoffer => exact .taken h (UInt64.not_lt.1 hdue) hoffer
      next agent' packet hoffer => exact .refused h (UInt64.not_lt.1 hdue) hoffer

/-! ### Snooping -/

/-- A functional access changes no tick and no place in the queue. -/
theorem ready_snoopEntries (access : Packet) (entries : List Deferred) :
    (snoopEntries access entries).1.map Deferred.ready = entries.map Deferred.ready := by
  induction entries generalizing access with
  | nil => rfl
  | cons e rest ih =>
    rw [snoopEntries]
    dsimp only
    split
    · rfl
    · rw [List.map_cons, List.map_cons, ih]

/-- Two queues with the same places: only the packets in them may differ. -/
structure Alike (q q' : TransmitQueue) : Prop where
  shell : q' = { q with entries := q'.entries }
  ready : q'.entries.map Deferred.ready = q.entries.map Deferred.ready

variable {q} in
theorem alike_snoop {q' : TransmitQueue} {access access' : Packet} {served : Bool}
    (h : q.snoop access = (q', access', served)) : q.Alike q' := by
  obtain rfl : { q with entries := (snoopEntries access q.entries).1 } = q' := congrArg Prod.fst h
  exact ⟨rfl, ready_snoopEntries access q.entries⟩

theorem Alike.refl : q.Alike q := ⟨rfl, rfl⟩

variable {q} in
theorem Alike.size_eq {q' : TransmitQueue} (h : q.Alike q') : q'.size = q.size := by
  have hlength := congrArg List.length h.ready
  rwa [List.length_map, List.length_map] at hlength

variable {q} in
theorem Alike.capacity_eq {q' : TransmitQueue} (h : q.Alike q') : q'.capacity = q.capacity := by
  rw [h.shell]

end TransmitQueue

end TimedBridge
