import Mathlib.Data.List.Induction
import TimedBridge.Proofs.TransmitQueue.Passage

/-!
A queue under calls of any kind in any order, at any ticks and with any ticks of readiness. What has
departed and what waits is what was let in, in this order, and no more waits than fits. What waits keeps
the tick that it was let in for, and only the head is ever offered, once that tick has come; a refusal
changes nothing that waits, and the agent's retry is taken just when a refusal has not been settled yet
(`disciplined_course`).
-/

namespace TimedBridge

namespace TransmitQueue

/-! ### Calls and runs -/

/-- An agent to which the head is offered. It hands back unchanged what it refuses. -/
structure Handoff where
  {Agent : Type}
  agent : Agent
  offer : Agent → Packet → Agent × Admission
  keeps : ∀ agent p, (offer agent p).2.KeepsPacket p

/-- Whether the agent takes a packet. -/
def Handoff.takes (h : Handoff) (p : Packet) : Bool := (h.offer h.agent p).2 = .accepted

theorem Handoff.eq_of_refused {h : Handoff} {p packet : Packet} {agent : h.Agent}
    (hoffer : h.offer h.agent p = (agent, .refused packet)) : packet = p := by
  have hkeeps := h.keeps h.agent p
  rw [hoffer] at hkeeps
  exact hkeeps

/-- A call on a queue. -/
inductive Call : Type 1 where
  | push (packet : Packet) (ready : Tick)
  | attemptDue
  | trySend (now : Tick) (handoff : Handoff)
  | takeRetry
  | snoop (access : Packet)

/-- Carries out a call. -/
def perform (q : TransmitQueue) : Call → Outcome TransmitQueue (Except BridgeFault Unit)
  | .push packet ready => q.push packet ready
  | .attemptDue => ⟨q.attemptDue, [], .ok ()⟩
  | .trySend now handoff =>
    let sent := q.trySend now handoff.agent handoff.offer
    ⟨sent.state.1, sent.effects, .ok ()⟩
  | .takeRetry =>
    match q.takeRetry with
    | .ok settled => ⟨settled, [], .ok ()⟩
    | .error fault => ⟨q, [], .error fault⟩
  | .snoop access => ⟨(q.snoop access).1, [], .ok ()⟩

/-- A call of a run: what it did to the world around the queue, and its answer. -/
structure Turn where
  call : Call
  effects : List Effect
  answer : Except BridgeFault Unit

/-- What is recorded of a call. -/
def turn (q : TransmitQueue) (call : Call) : Turn :=
  ⟨call, (q.perform call).effects, (q.perform call).answer⟩

/-- The calls of a run with what they did, and the queue at its end. -/
def course (q : TransmitQueue) (calls : List Call) : List Turn × TransmitQueue :=
  calls.foldl (fun s call => (s.1 ++ [s.2.turn call], (s.2.perform call).state)) ([], q)

/-! ### What a run has done -/

/-- The identity of the packet that a call let in. -/
def Turn.entered : Turn → List RequestId
  | ⟨.push packet _, _, .ok ()⟩ => [packet.id]
  | _ => []

/-- The identity of the packet that a call let in, with the tick from which it may leave. -/
def Turn.admitted : Turn → List Waiting
  | ⟨.push packet ready, _, .ok ()⟩ => [⟨packet.id, ready⟩]
  | _ => []

theorem Turn.entered_eq (t : Turn) : t.entered = t.admitted.map Waiting.id := by
  obtain ⟨call, effects, answer⟩ := t
  cases call <;> cases answer <;> rfl

/-- The identity of the packet that a call handed over. -/
def Turn.departed (d : Direction) (t : Turn) : List RequestId :=
  (Effect.departures d t.effects).map Packet.id

/-- An offer was refused in the call. -/
def Turn.Refused (t : Turn) : Prop := ∃ d p, (d, p, false) ∈ Effect.offers t.effects

/-- The call took the retry of the agent. -/
def Turn.Settled (t : Turn) : Prop := t.call = .takeRetry ∧ t.answer = .ok ()

/-- An offer was refused, and no retry has been taken since. -/
def Owed (log : List Turn) : Prop :=
  ∃ before t later, log = before ++ t :: later ∧ t.Refused ∧ ∀ u ∈ later, ¬ u.Settled

theorem owed_concat {log : List Turn} {t : Turn} :
    Owed (log ++ [t]) ↔ t.Refused ∨ Owed log ∧ ¬ t.Settled := by
  constructor
  · rintro ⟨before, u, later, heq, hrefused, hlater⟩
    rcases List.eq_nil_or_concat later with rfl | ⟨later, v, rfl⟩
    · obtain ⟨-, hu⟩ := List.append_inj' heq rfl
      obtain rfl := List.singleton_inj.1 hu
      exact .inl hrefused
    · rw [List.concat_eq_append, ← List.cons_append, ← List.append_assoc] at heq
      obtain ⟨rfl, hv⟩ := List.append_inj' heq rfl
      obtain rfl := List.singleton_inj.1 hv
      rw [List.concat_eq_append, List.forall_mem_append, List.forall_mem_singleton] at hlater
      exact .inr ⟨⟨before, u, later, rfl, hrefused, hlater.1⟩, hlater.2⟩
  · rintro (hrefused | ⟨⟨before, u, later, rfl, hrefused, hlater⟩, hsettled⟩)
    · exact ⟨log, t, [], rfl, hrefused, List.forall_mem_nil _⟩
    · refine ⟨before, u, later ++ [t], by simp, hrefused, ?_⟩
      rw [List.forall_mem_append, List.forall_mem_singleton]
      exact ⟨hlater, hsettled⟩

/-! ### What is gone and what waits -/

/-- Of what was let in, the packets in `departed` are gone and the rest waits, in this order and with the
ticks that it was let in for. -/
def Splits (admitted : List Waiting) (departed : List RequestId) (waiting : List Waiting) : Prop :=
  ∃ gone : List Waiting, gone.map Waiting.id = departed ∧ gone ++ waiting = admitted

section Splits

variable {admitted waiting more later : List Waiting} {departed next : List RequestId}

theorem Splits.rest (admitted : List Waiting) : Splits admitted [] admitted := ⟨[], rfl, rfl⟩

/-- What is let in later waits behind what waits already. -/
theorem Splits.append (h : Splits admitted departed waiting) (hnext : Splits (waiting ++ more) next later) :
    Splits (admitted ++ more) (departed ++ next) later := by
  obtain ⟨gone, rfl, rfl⟩ := h
  obtain ⟨gone', rfl, hlater⟩ := hnext
  refine ⟨gone ++ gone', List.map_append, ?_⟩
  rw [List.append_assoc, hlater, List.append_assoc]

theorem Splits.eq_drop (h : Splits admitted departed waiting) :
    waiting = admitted.drop departed.length := by
  obtain ⟨gone, rfl, rfl⟩ := h
  rw [List.length_map, List.drop_left]

theorem Splits.ids_eq (h : Splits admitted departed waiting) :
    departed ++ waiting.map Waiting.id = admitted.map Waiting.id := by
  obtain ⟨gone, rfl, rfl⟩ := h
  exact List.map_append.symm

end Splits

/-! ### What a call does -/

variable {q q' : TransmitQueue} {d : Direction}

/-- The next attempt is asked for without an offer. -/
theorem offers_departure (q : TransmitQueue) (d : Direction) (p : Packet) (now : Tick) :
    Effect.offers (.offer d p true :: (q.armForHead now).effects) = [(d, p, true)] := by
  rw [← List.singleton_append, Effect.offers_append, offers_armForHead]
  rfl

/-- What a call makes of a queue: the places of the queue, what passes, and whether a retry is owed. -/
structure Advances (q : TransmitQueue) (t : Turn) (q' : TransmitQueue) : Prop where
  direction : q'.direction = q.direction
  capacity : q'.capacity = q.capacity
  size : q.size ≤ q.capacity → q'.size ≤ q.capacity
  splits : Splits (q.waiting ++ t.admitted) (t.departed q.direction) q'.waiting
  owed : q'.awaitingRetry = true ↔ t.Refused ∨ q.awaitingRetry = true ∧ ¬ t.Settled

theorem Turn.not_refused {t : Turn} (h : Effect.offers t.effects = []) : ¬ t.Refused := by
  rintro ⟨direction, p, hp⟩
  rw [h] at hp
  exact absurd hp List.not_mem_nil

/-- A call that lets nothing in and nothing go leaves what waits in its place. -/
theorem splits_of_waiting_eq {t : Turn} (hadmitted : t.admitted = [])
    (hdeparted : Effect.departures d t.effects = []) (h : q'.waiting = q.waiting) :
    Splits (q.waiting ++ t.admitted) (t.departed d) q'.waiting := by
  rw [hadmitted, List.append_nil, Turn.departed, hdeparted, h]
  exact .rest _

/-- A call in which nothing is refused and no retry is taken leaves open what the agent owes. -/
theorem owed_of_not_refused {t : Turn} (hrefused : ¬ t.Refused) (hcall : t.call ≠ .takeRetry)
    (hawaiting : q'.awaitingRetry = q.awaitingRetry) :
    q'.awaitingRetry = true ↔ t.Refused ∨ q.awaitingRetry = true ∧ ¬ t.Settled := by
  have hsettled : ¬ t.Settled := fun h => hcall h.1
  rw [hawaiting]
  exact ⟨fun h => .inr ⟨h, hsettled⟩, fun h => (h.resolve_left hrefused).1⟩

theorem advances_push (q : TransmitQueue) (packet : Packet) (ready : Tick) :
    q.Advances (q.turn (.push packet ready)) (q.perform (.push packet ready)).state := by
  by_cases hroom : q.size < q.capacity
  · have hanswer : (q.push packet ready).answer = .ok () := by rw [push_of_room packet ready hroom]
    have hadmitted : (q.turn (.push packet ready)).admitted = [⟨packet.id, ready⟩] := by
      rw [turn, perform, hanswer]
      rfl
    have hdeparted : (q.turn (.push packet ready)).departed q.direction = [] :=
      congrArg (List.map Packet.id) (Effect.departures_of_no_offer (offers_push packet ready))
    refine ⟨direction_push .., capacity_push .., fun _ => ?_, ?_, ?_⟩
    · rw [perform, size_push packet ready hroom]
      exact hroom
    · rw [hadmitted, hdeparted, perform, waiting_push packet ready hroom]
      exact .rest _
    · exact owed_of_not_refused (Turn.not_refused (offers_push packet ready)) Call.noConfusion
        (awaitingRetry_push packet ready hroom)
  · have hfull := push_of_full packet ready (Nat.not_lt.1 hroom)
    have hturn : q.turn (.push packet ready) =
        ⟨.push packet ready, [], .error (.queueOverflow q.direction q.capacity)⟩ := by
      rw [turn, perform, hfull]
    rw [hturn, perform, hfull]
    exact ⟨rfl, rfl, id, splits_of_waiting_eq rfl rfl rfl,
      owed_of_not_refused (Turn.not_refused rfl) Call.noConfusion rfl⟩

theorem advances_attemptDue (q : TransmitQueue) :
    q.Advances (q.turn .attemptDue) (q.perform .attemptDue).state :=
  ⟨rfl, rfl, id, splits_of_waiting_eq rfl rfl rfl,
    owed_of_not_refused (Turn.not_refused rfl) Call.noConfusion rfl⟩

theorem advances_trySend (q : TransmitQueue) (now : Tick) (handoff : Handoff) :
    q.Advances (q.turn (.trySend now handoff)) (q.perform (.trySend now handoff)).state := by
  have hend := q.attempt_trySend now handoff.agent handoff.offer
  rw [turn, perform]
  generalize q.trySend now handoff.agent handoff.offer = sent at hend ⊢
  cases hend with
  | empty =>
    exact ⟨rfl, rfl, id, splits_of_waiting_eq rfl rfl rfl,
      owed_of_not_refused (Turn.not_refused rfl) Call.noConfusion rfl⟩
  | @early head =>
    refine ⟨direction_arm .., capacity_arm .., ?_, ?_, ?_⟩
    · dsimp only
      rw [size, size, entries_arm]
      exact id
    · exact splits_of_waiting_eq rfl (departures_arm ..) (waiting_of_entries (entries_arm ..))
    · refine owed_of_not_refused (Turn.not_refused (offers_arm ..)) Call.noConfusion ?_
      dsimp only
      rw [state_arm]
  | @taken head rest agent' h hdue hoffer =>
    refine ⟨direction_armForHead .., capacity_armForHead .., ?_, ?_, ?_⟩
    · dsimp only
      rw [size, size, entries_armForHead, h]
      exact Nat.le_of_succ_le
    · refine ⟨[head.waiting], ?_, ?_⟩
      · rw [Turn.departed, Effect.departures_cons_taken, if_pos rfl, departures_armForHead]
        rfl
      · dsimp only
        rw [waiting, waiting, entries_armForHead, h]
        exact (List.append_nil _).symm
    · refine owed_of_not_refused ?_ Call.noConfusion (awaitingRetry_armForHead ..)
      rintro ⟨direction, p, hp⟩
      rw [offers_departure] at hp
      obtain ⟨⟩ := List.mem_singleton.1 hp
  | @refused head rest agent' packet h hdue hoffer =>
    have hentries : ⟨packet, head.ready⟩ :: rest = q.entries := by
      rw [h, Handoff.eq_of_refused hoffer]
    refine ⟨rfl, rfl, ?_, ?_, ?_⟩
    · dsimp only
      rw [size, size, hentries]
      exact id
    · exact splits_of_waiting_eq rfl (Effect.departures_refused ..) (waiting_of_entries hentries)
    · exact ⟨fun _ => .inl ⟨q.direction, head.packet, List.mem_singleton_self _⟩, fun _ => rfl⟩

theorem advances_takeRetry (q : TransmitQueue) :
    q.Advances (q.turn .takeRetry) (q.perform .takeRetry).state := by
  rw [turn]
  cases hawaiting : q.awaitingRetry with
  | true =>
    have hperform : q.perform .takeRetry = ⟨{ q with awaitingRetry := false }, [], .ok ()⟩ := by
      rw [perform, takeRetry, if_pos hawaiting]
    rw [hperform]
    refine ⟨rfl, rfl, id, splits_of_waiting_eq rfl rfl rfl, nofun, ?_⟩
    rintro (hrefused | ⟨-, hopen⟩)
    · exact absurd hrefused (Turn.not_refused rfl)
    · exact absurd ⟨rfl, rfl⟩ hopen
  | false =>
    have hperform : q.perform .takeRetry = ⟨q, [], .error (.spuriousRetry q.direction)⟩ := by
      rw [perform, takeRetry, if_neg (Bool.eq_false_iff.1 hawaiting)]
    rw [hperform]
    refine ⟨rfl, rfl, id, splits_of_waiting_eq rfl rfl rfl, ?_⟩
    rw [hawaiting]
    exact ⟨nofun, fun h => (h.resolve_left (Turn.not_refused rfl)).1⟩

theorem advances_snoop (q : TransmitQueue) (access : Packet) :
    q.Advances (q.turn (.snoop access)) (q.perform (.snoop access)).state := by
  have halike : q.Alike (q.snoop access).1 := alike_snoop rfl
  have hdirection : (q.snoop access).1.direction = q.direction := by rw [halike.shell]
  have hawaiting : (q.snoop access).1.awaitingRetry = q.awaitingRetry := by rw [halike.shell]
  exact ⟨hdirection, halike.capacity_eq, Nat.le_trans (Nat.le_of_eq halike.size_eq),
    splits_of_waiting_eq rfl rfl (waiting_snoop rfl),
    owed_of_not_refused (Turn.not_refused rfl) Call.noConfusion hawaiting⟩

theorem advances_perform (q : TransmitQueue) (call : Call) :
    q.Advances (q.turn call) (q.perform call).state := by
  cases call with
  | push packet ready => exact advances_push q packet ready
  | attemptDue => exact advances_attemptDue q
  | trySend now handoff => exact advances_trySend q now handoff
  | takeRetry => exact advances_takeRetry q
  | snoop access => exact advances_snoop q access

/-! ### What a run does -/

variable {capacity : Nat} {log : List Turn}

/-- A queue of a direction and a capacity after the calls in `log`: what has departed and what waits is
what was let in, no more waits than fits, and the queue knows whether a refusal is unsettled. -/
structure Orderly (d : Direction) (capacity : Nat) (log : List Turn) (q : TransmitQueue) : Prop where
  direction : q.direction = d
  capacity : q.capacity = capacity
  size : q.size ≤ q.capacity
  splits : Splits (log.flatMap Turn.admitted) (log.flatMap (Turn.departed d)) q.waiting
  owed : q.awaitingRetry = true ↔ Owed log

theorem orderly_empty (d : Direction) (capacity : Nat) :
    Orderly d capacity [] { direction := d, capacity } := by
  refine ⟨rfl, rfl, Nat.zero_le _, .rest _, nofun, ?_⟩
  rintro ⟨before, t, later, heq, -⟩
  simp at heq

/-- A call keeps a queue in order. -/
theorem Orderly.perform (h : Orderly d capacity log q) (call : Call) :
    Orderly d capacity (log ++ [q.turn call]) (q.perform call).state := by
  obtain ⟨hdirection, hcapacity, hsize, hsplits, howed⟩ := advances_perform q call
  refine ⟨hdirection.trans h.direction, hcapacity.trans h.capacity, hcapacity ▸ hsize h.size, ?_, ?_⟩
  · rw [h.direction] at hsplits
    rw [List.flatMap_append, List.flatMap_append, List.flatMap_singleton, List.flatMap_singleton]
    exact h.splits.append hsplits
  · rw [howed, owed_concat, h.owed]

theorem orderly_course (d : Direction) (capacity : Nat) (calls : List Call) :
    Orderly d capacity (course { direction := d, capacity } calls).1
      (course { direction := d, capacity } calls).2 := by
  induction calls using List.reverseRecOn with
  | nil => exact orderly_empty d capacity
  | append_singleton calls call ih =>
    rw [course, List.foldl_append]
    exact ih.perform call

/-- The head, if it may leave, is what an attempt offers, and nothing else is. -/
theorem offers_trySend (q : TransmitQueue) (now : Tick) (handoff : Handoff) :
    Effect.offers (q.perform (.trySend now handoff)).effects =
      (q.entries.head?.toList.filter (·.ready ≤ now)).map fun head =>
        (q.direction, head.packet, handoff.takes head.packet) := by
  have hend := q.attempt_trySend now handoff.agent handoff.offer
  rw [TransmitQueue.perform]
  generalize q.trySend now handoff.agent handoff.offer = sent at hend ⊢
  cases hend with
  | empty h =>
    rw [h]
    rfl
  | @early head rest h hearly =>
    dsimp only
    rw [offers_arm, h]
    simp [UInt64.not_le.2 hearly]
  | @taken head rest agent' h hdue hoffer =>
    have htakes : handoff.takes head.packet = true := by simp [Handoff.takes, hoffer]
    dsimp only
    rw [offers_departure, h]
    simp [hdue, htakes]
  | @refused head rest agent' packet h hdue hoffer =>
    have htakes : handoff.takes head.packet = false := by simp [Handoff.takes, hoffer]
    dsimp only
    rw [h]
    simp [hdue, htakes, Effect.offers]

/-- Only an attempt makes offers. -/
theorem exists_trySend (q : TransmitQueue) {call : Call}
    (h : Effect.offers (q.perform call).effects ≠ []) : ∃ now handoff, call = .trySend now handoff := by
  cases call with
  | trySend now handoff => exact ⟨now, handoff, rfl⟩
  | push packet ready => exact absurd (offers_push packet ready) h
  | attemptDue => exact absurd rfl h
  | takeRetry =>
    refine absurd ?_ h
    rw [TransmitQueue.perform]
    cases q.takeRetry <;> rfl
  | snoop access => exact absurd rfl h

/-- A refused head goes back to its place. -/
theorem entries_of_refused {call : Call} (h : (q.turn call).Refused) :
    (q.perform call).state.entries = q.entries := by
  obtain ⟨direction, p, hp⟩ := h
  obtain ⟨now, handoff, rfl⟩ := q.exists_trySend (List.ne_nil_of_mem hp)
  have hend := q.attempt_trySend now handoff.agent handoff.offer
  rw [turn, TransmitQueue.perform] at hp
  rw [TransmitQueue.perform]
  generalize q.trySend now handoff.agent handoff.offer = sent at hend hp ⊢
  cases hend with
  | empty h => rfl
  | early h => exact entries_arm ..
  | taken h hdue hoffer =>
    dsimp only at hp
    rw [offers_departure] at hp
    obtain ⟨⟩ := List.mem_singleton.1 hp
  | @refused head rest agent' packet h hdue hoffer =>
    dsimp only
    rw [h, Handoff.eq_of_refused hoffer]

/-- What was let in and has not departed, with the ticks that it was let in for. -/
def unsent (d : Direction) (log : List Turn) : List Waiting :=
  (log.flatMap Turn.admitted).drop (log.flatMap (Turn.departed d)).length

/-- The head is offered once its tick has come. -/
theorem ids_offers_trySend (q : TransmitQueue) (now : Tick) (handoff : Handoff) :
    (Effect.offers (q.perform (.trySend now handoff)).effects).map (fun offer => offer.2.1.id) =
      (q.waiting.head?.toList.filter (·.due ≤ now)).map Waiting.id := by
  rw [offers_trySend, TransmitQueue.waiting]
  cases q.entries with
  | nil => rfl
  | cons head rest => by_cases hdue : head.ready ≤ now <;> simp [Deferred.waiting, hdue]

/-- What a queue does after the calls in `log`. -/
structure Disciplined (d : Direction) (capacity : Nat) (log : List Turn) (q : TransmitQueue) :
    Prop where
  /-- What has departed and what waits is what was let in, in this order. -/
  ids : log.flatMap (Turn.departed d) ++ q.packets.map Packet.id = log.flatMap Turn.entered
  /-- What waits has the tick that it was let in for. -/
  waiting : q.waiting = unsent d log
  /-- What a call lets in waits last, with its tick; all else that does not depart keeps its place and its
  tick. -/
  kept : ∀ call, (q.perform call).state.waiting =
    (q.waiting ++ (q.turn call).admitted).drop ((q.turn call).departed d).length
  size : q.size ≤ capacity
  /-- A push fails only when the queue is full, and then does nothing. -/
  push : ∀ packet ready, if q.size = capacity then
      q.perform (.push packet ready) = ⟨q, [], .error (.queueOverflow d capacity)⟩
    else (q.perform (.push packet ready)).answer = .ok ()
  /-- An attempt offers the head if it may leave now, and nothing else. -/
  trySend : ∀ now handoff, Effect.offers (q.perform (.trySend now handoff)).effects =
    (q.entries.head?.toList.filter (·.ready ≤ now)).map fun head =>
      (d, head.packet, handoff.takes head.packet)
  /-- An attempt offers what was let in first of all that has not departed, once the tick has come that it
  was let in for. -/
  due : ∀ now handoff,
    (Effect.offers (q.perform (.trySend now handoff)).effects).map (fun offer => offer.2.1.id) =
      ((unsent d log).head?.toList.filter (·.due ≤ now)).map Waiting.id
  /-- No other call makes an offer. -/
  offers : ∀ call, Effect.offers (q.perform call).effects ≠ [] →
    ∃ now handoff, call = .trySend now handoff
  /-- A refusal changes nothing that waits. -/
  refused : ∀ call, (q.turn call).Refused → (q.perform call).state.entries = q.entries
  /-- A retry is taken exactly when a refusal is not settled. -/
  settled : (q.perform .takeRetry).answer = .ok () ↔ Owed log
  /-- A retry that is not taken does nothing. -/
  spurious : ¬ Owed log → q.perform .takeRetry = ⟨q, [], .error (.spuriousRetry d)⟩

theorem Orderly.disciplined (h : Orderly d capacity log q) : Disciplined d capacity log q where
  ids := by
    have hentered : log.flatMap Turn.entered = (log.flatMap Turn.admitted).map Waiting.id := by
      rw [List.map_flatMap]
      exact List.flatMap_congr fun t _ => t.entered_eq
    rw [← ids_waiting, hentered]
    exact h.splits.ids_eq
  waiting := h.splits.eq_drop
  kept call := h.direction ▸ (advances_perform q call).splits.eq_drop
  size := h.capacity ▸ h.size
  push packet ready := by
    have hsize := h.size
    rw [← h.capacity, ← h.direction]
    split
    next hfull => exact push_of_full packet ready (Nat.le_of_eq hfull.symm)
    next hroom =>
      have hroom' : q.size < q.capacity := by omega
      rw [TransmitQueue.perform, push_of_room packet ready hroom']
  trySend now handoff := h.direction ▸ q.offers_trySend now handoff
  due now handoff := by
    rw [ids_offers_trySend, h.splits.eq_drop]
    rfl
  offers _ := q.exists_trySend
  refused _ := entries_of_refused
  settled := by
    rw [← h.owed, TransmitQueue.perform, TransmitQueue.takeRetry]
    cases q.awaitingRetry <;> simp
  spurious := by
    rw [← h.owed, ← h.direction, TransmitQueue.perform, TransmitQueue.takeRetry]
    intro hawaiting
    rw [if_neg hawaiting]

/-- After any calls, a queue of any capacity is a bounded first-in first-out queue. -/
theorem disciplined_course (d : Direction) (capacity : Nat) (calls : List Call) :
    Disciplined d capacity (course { direction := d, capacity } calls).1
      (course { direction := d, capacity } calls).2 :=
  (orderly_course d capacity calls).disciplined

/-- Of two packets that were let in for the ticks 10 and 5 none is offered at tick 7. The first leaves at
tick 10, and the second has kept its tick. -/
theorem disciplined_outOfOrder :
    ∃ log q, course { direction := .request, capacity := 2 }
        [.push (.read 1 0 4 0) 10, .push (.read 2 0 4 0) 5,
          .trySend 7 ⟨(), fun _ _ => ((), .accepted), fun _ _ => trivial⟩,
          .trySend 10 ⟨(), fun _ _ => ((), .accepted), fun _ _ => trivial⟩] = (log, q) ∧
      log.map (fun t => Effect.offers t.effects) = [[], [], [], [(.request, .read 1 0 4 0, true)]] ∧
      q.waiting = [⟨2, 5⟩] ∧
      ∀ handoff, Effect.offers (q.perform (.trySend 4 handoff)).effects = [] ∧
        Effect.offers (q.perform (.trySend 5 handoff)).effects =
          [(.request, .read 2 0 4 0, handoff.takes (.read 2 0 4 0))] := by
  have h := disciplined_course .request 2
    [.push (.read 1 0 4 0) 10, .push (.read 2 0 4 0) 5,
      .trySend 7 ⟨(), fun _ _ => ((), .accepted), fun _ _ => trivial⟩,
      .trySend 10 ⟨(), fun _ _ => ((), .accepted), fun _ _ => trivial⟩]
  exact ⟨_, _, rfl, rfl, h.waiting, fun handoff => ⟨h.trySend 4 handoff, h.trySend 5 handoff⟩⟩

end TransmitQueue

end TimedBridge
