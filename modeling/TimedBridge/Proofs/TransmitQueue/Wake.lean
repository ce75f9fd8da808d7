import TimedBridge.Proofs.TransmitQueue.Calls

/-!
Wake-ups of a queue. A queue is told of nothing but calls and attempts to send, so a packet leaves only
if an attempt is scheduled for it or the agent owes a retry. `Awake` is that invariant when attempts
may be made at any time; `AwakeOnce` is the exact one when an attempt is made only when a scheduled one
comes due. Both relate the queue to the ticks for which attempts are scheduled.
-/

namespace TimedBridge

namespace TransmitQueue

/-- The ticks for which `arm` asks for an attempt. -/
def asks (q : TransmitQueue) (tick : Tick) : List Tick := if q.sendScheduled then [] else [tick]

/-! ### What happens to a queue -/

/-- What a try to send at `now` can do to a queue, with the ticks that it asks for and the offer that
it makes. -/
inductive Sending (q : TransmitQueue) (now : Tick) :
    List Tick → List (Direction × Packet × Bool) → TransmitQueue → Prop
  | empty (h : q.entries = []) : Sending q now [] [] q
  | early {head : Deferred} {rest : List Deferred} (h : q.entries = head :: rest)
      (hearly : now < head.ready) :
      Sending q now (q.asks head.ready) [] { q with sendScheduled := true }
  | refused {head : Deferred} {rest : List Deferred} (packet : Packet) (h : q.entries = head :: rest) :
      Sending q now [] [(q.direction, head.packet, false)]
        { q with entries := ⟨packet, head.ready⟩ :: rest, awaitingRetry := true }
  | last {head : Deferred} (h : q.entries = [head]) :
      Sending q now [] [(q.direction, head.packet, true)] { q with entries := [] }
  | taken {head next : Deferred} {rest : List Deferred} (h : q.entries = head :: next :: rest) :
      Sending q now (q.asks (max next.ready now)) [(q.direction, head.packet, true)]
        { q with entries := next :: rest, sendScheduled := true }

/-- What a call that is no attempt can do to a queue, with the ticks that it asks for. -/
inductive Move (q : TransmitQueue) (now : Tick) : List Tick → TransmitQueue → Prop
  | rest : Move q now [] q
  | snoop {q' : TransmitQueue} (h : q.Alike q') : Move q now [] q'
  | push (packet : Packet) (ready : Tick) (hroom : q.size < q.capacity) :
      Move q now (if q.isEmpty then q.asks ready else []) (q.push packet ready).state
  | retry {asks : List Tick} {offers : List (Direction × Packet × Bool)} {q' : TransmitQueue}
      (hawaiting : q.awaitingRetry = true)
      (h : Sending { q with awaitingRetry := false } now asks offers q') : Move q now asks q'

variable {q q' : TransmitQueue} {now : Tick} {asks dues dues' : List Tick}
  {offers : List (Direction × Packet × Bool)}

theorem Sending.direction_eq (h : q.Sending now asks offers q') : q'.direction = q.direction := by
  cases h <;> rfl

theorem Move.direction_eq (h : q.Move now asks q') : q'.direction = q.direction := by
  cases h with
  | rest => rfl
  | snoop h => rw [h.shell]
  | push => exact direction_push ..
  | retry _ h => exact h.direction_eq

/-- When the head may leave, it is offered, and nothing else is. -/
theorem Sending.offers_of_due (h : q.Sending now asks offers q') {head : Deferred}
    {rest : List Deferred} (hentries : q.entries = head :: rest) (hdue : head.ready ≤ now) :
    ∃ taken, offers = [(q.direction, head.packet, taken)] := by
  cases h with
  | empty h => rw [h] at hentries; contradiction
  | early h hearly =>
    rw [h] at hentries
    obtain ⟨rfl, -⟩ := List.cons.inj hentries
    exact absurd hearly (UInt64.not_lt.2 hdue)
  | refused packet h =>
    rw [h] at hentries
    obtain ⟨rfl, -⟩ := List.cons.inj hentries
    exact ⟨false, rfl⟩
  | last h =>
    rw [h] at hentries
    obtain ⟨rfl, -⟩ := List.cons.inj hentries
    exact ⟨true, rfl⟩
  | taken h =>
    rw [h] at hentries
    obtain ⟨rfl, -⟩ := List.cons.inj hentries
    exact ⟨true, rfl⟩

/-! ### Attempts at any time -/

/-- A queue whose attempts are scheduled for the ticks `dues`: it knows of a scheduled attempt only if
there is one, and when packets wait, one is scheduled or the agent owes a retry. -/
structure Awake (q : TransmitQueue) (dues : List Tick) : Prop where
  scheduled : q.sendScheduled = true → dues ≠ []
  woken : q.entries ≠ [] → dues ≠ [] ∨ q.awaitingRetry = true

theorem Awake.perm (h : q.Awake dues) (hp : dues.Perm dues') : q.Awake dues' := by
  have hne : dues ≠ [] → dues' ≠ [] := fun hdues heq => hdues (List.Perm.eq_nil (heq ▸ hp))
  exact ⟨fun hs => hne (h.scheduled hs), fun he => (h.woken he).imp_left hne⟩

/-- After a queue has been armed, an attempt is scheduled. -/
theorem asks_append_ne_nil (hs : q.sendScheduled = true → dues ≠ []) (tick : Tick) (f : Tick → Tick) :
    (q.asks tick).map f ++ dues ≠ [] := by
  rw [TransmitQueue.asks]
  split
  next h => exact hs h
  next => exact fun h => nomatch h

/-- A try to send leaves a queue awake, whatever woke it before. -/
theorem Sending.awake (h : q.Sending now asks offers q') (hs : q.sendScheduled = true → dues ≠ [])
    (f : Tick → Tick) : q'.Awake (asks.map f ++ dues) := by
  cases h with
  | empty h => exact ⟨hs, fun he => absurd h he⟩
  | @early head =>
    have hne := asks_append_ne_nil hs head.ready f
    exact ⟨fun _ => hne, fun _ => .inl hne⟩
  | refused => exact ⟨hs, fun _ => .inr rfl⟩
  | last => exact ⟨hs, fun he => absurd rfl he⟩
  | @taken head next =>
    have hne := asks_append_ne_nil hs (max next.ready now) f
    exact ⟨fun _ => hne, fun _ => .inl hne⟩

theorem Awake.move (hq : q.Awake dues) (h : q.Move now asks q') (f : Tick → Tick) :
    q'.Awake (asks.map f ++ dues) := by
  cases h with
  | rest => exact hq
  | snoop h =>
    obtain ⟨hshell, hready⟩ := h
    rw [hshell]
    refine ⟨hq.scheduled, fun he => hq.woken fun hnil => he ?_⟩
    rw [hnil] at hready
    exact List.map_eq_nil_iff.1 hready
  | push packet ready hroom =>
    rw [push_of_room packet ready hroom]
    cases hempty : q.isEmpty with
    | true =>
      have hne := asks_append_ne_nil hq.scheduled ready f
      exact ⟨fun _ => hne, fun _ => .inl hne⟩
    | false =>
      have hne : q.entries ≠ [] := by
        intro hnil
        rw [isEmpty, hnil] at hempty
        contradiction
      exact ⟨hq.scheduled, fun _ => hq.woken hne⟩
  | retry _ h => exact h.awake hq.scheduled f

/-! ### Attempts when they come due -/

/-- A queue whose attempts are scheduled for the ticks `dues` and made only then: at most one is
scheduled, an empty queue waits for nothing, one with packets waits for the attempt or for the agent,
not for both, and the attempt does not come before the head may leave. -/
structure AwakeOnce (q : TransmitQueue) (dues : List Tick) : Prop where
  count : dues.length = if q.sendScheduled then 1 else 0
  idle : q.entries = [] → q.sendScheduled = false ∧ q.awaitingRetry = false
  busy : q.entries ≠ [] → q.sendScheduled = !q.awaitingRetry
  due : ∀ head ∈ q.entries.head?, ∀ due ∈ dues, head.ready ≤ due

theorem AwakeOnce.perm (h : q.AwakeOnce dues) (hp : dues.Perm dues') : q.AwakeOnce dues' :=
  ⟨hp.length_eq ▸ h.count, h.idle, h.busy, fun head hhead due hdue =>
    h.due head hhead due (hp.mem_iff.2 hdue)⟩

theorem AwakeOnce.dues_eq_nil (h : q.AwakeOnce dues) (hs : q.sendScheduled = false) : dues = [] := by
  have hcount := h.count
  rw [hs] at hcount
  exact List.length_eq_zero_iff.1 hcount

theorem le_max_of_le {a b c : Tick} (h : a ≤ b) : a ≤ max b c := by
  rw [UInt64.le_iff_toNat_le] at h ⊢
  rw [toNat_max]
  exact Nat.le_trans h (Nat.le_max_left ..)

theorem asks_eq (hs : q.sendScheduled = false) (tick : Tick) : q.asks tick = [tick] := by
  rw [TransmitQueue.asks, hs]; rfl

/-- A queue that is armed for its head while nothing is scheduled and the agent owes nothing is awake
once. -/
theorem awakeOnce_arm (hs : q.sendScheduled = false) (ha : q.awaitingRetry = false) {head : Deferred}
    {rest : List Deferred} {tick : Tick} (hready : head.ready ≤ tick) :
    AwakeOnce { q with entries := head :: rest, sendScheduled := true }
      ((q.asks tick).map (max · now)) := by
  rw [asks_eq hs]
  refine ⟨rfl, fun h => absurd h (List.cons_ne_nil _ _), fun _ => ?_, ?_⟩
  · exact congrArg Bool.not ha.symm
  · intro head' hhead due hdue
    obtain rfl := Option.some.inj hhead
    obtain rfl := List.mem_singleton.1 hdue
    exact le_max_of_le hready

/-- A try to send, made when nothing is scheduled and the agent owes nothing, leaves the queue awake
once. -/
theorem Sending.awakeOnce (h : q.Sending now asks offers q') (hne : q.entries ≠ [])
    (hs : q.sendScheduled = false) (ha : q.awaitingRetry = false) :
    q'.AwakeOnce (asks.map (max · now)) := by
  cases h with
  | empty h => exact absurd h hne
  | @early head rest h =>
    have harmed : AwakeOnce { q with entries := head :: rest, sendScheduled := true }
        ((q.asks head.ready).map (max · now)) := awakeOnce_arm hs ha (UInt64.le_refl _)
    rwa [← h] at harmed
  | refused =>
    refine ⟨?_, fun h => absurd h (List.cons_ne_nil _ _), fun _ => hs, fun _ _ _ hdue => nomatch hdue⟩
    dsimp only
    rw [hs]; rfl
  | last =>
    refine ⟨?_, fun _ => ⟨hs, ha⟩, fun h => absurd rfl h, fun _ hhead => nomatch hhead⟩
    dsimp only
    rw [hs]; rfl
  | taken => exact awakeOnce_arm hs ha (le_max_of_le (UInt64.le_refl _))

theorem AwakeOnce.move (hq : q.AwakeOnce dues) (h : q.Move now asks q') :
    q'.AwakeOnce (asks.map (max · now) ++ dues) := by
  cases h with
  | rest => exact hq
  | snoop h =>
    obtain ⟨hshell, hready⟩ := h
    rw [hshell]
    have hnil : q'.entries = [] ↔ q.entries = [] := by
      rw [← List.map_eq_nil_iff (f := Deferred.ready), hready, List.map_eq_nil_iff]
    refine ⟨hq.count, fun h => hq.idle (hnil.1 h), fun h => hq.busy (mt hnil.2 h), ?_⟩
    intro head hhead due hdue
    have hheads := congrArg List.head? hready
    rw [List.head?_map, List.head?_map, hhead] at hheads
    obtain ⟨old, hold, heq⟩ := Option.map_eq_some_iff.1 hheads.symm
    exact heq ▸ hq.due old hold due hdue
  | push packet ready hroom =>
    rw [push_of_room packet ready hroom]
    cases hentries : q.entries with
    | nil =>
      obtain ⟨hs, ha⟩ := hq.idle hentries
      have hempty : q.isEmpty = true := by rw [isEmpty, hentries]; rfl
      rw [hempty, hq.dues_eq_nil hs, List.append_nil]
      simp only [if_true, state_arm, List.nil_append]
      exact awakeOnce_arm hs ha (UInt64.le_refl ready)
    | cons head rest =>
      have hempty : q.isEmpty = false := by rw [isEmpty, hentries]; rfl
      have hne : q.entries ≠ [] := by rw [hentries]; exact List.cons_ne_nil _ _
      rw [hempty]
      refine ⟨hq.count, fun h => absurd h (List.cons_ne_nil _ _), fun _ => hq.busy hne, ?_⟩
      intro head' hhead due hdue
      exact hq.due head' (by rw [hentries]; exact hhead) due hdue
  | retry hawaiting h =>
    have hne : q.entries ≠ [] := by
      intro hnil
      rw [(hq.idle hnil).2] at hawaiting
      contradiction
    have hs : q.sendScheduled = false := by rw [hq.busy hne, hawaiting]; rfl
    -- The agent owed the retry, so nothing was scheduled: what the try asks for is all there is.
    rw [hq.dues_eq_nil hs, List.append_nil]
    exact h.awakeOnce hne hs rfl

/-- When a scheduled attempt comes due, it is the only one, and it finds a head that may leave. -/
theorem AwakeOnce.attempt (hq : q.AwakeOnce (now :: dues)) :
    dues = [] ∧ q.awaitingRetry = false ∧
      ∃ head rest, q.entries = head :: rest ∧ head.ready ≤ now := by
  have hs : q.sendScheduled = true := by
    cases hs : q.sendScheduled with
    | true => rfl
    | false => exact absurd (hq.dues_eq_nil hs) (List.cons_ne_nil _ _)
  have hcount := hq.count
  rw [hs] at hcount
  refine ⟨List.length_eq_zero_iff.1 (Nat.succ.inj hcount), ?_⟩
  cases hentries : q.entries with
  | nil =>
    rw [(hq.idle hentries).1] at hs
    contradiction
  | cons head rest =>
    have hbusy := hq.busy (by rw [hentries]; exact List.cons_ne_nil _ _)
    have ha : q.awaitingRetry = false := by
      cases ha : q.awaitingRetry with
      | false => rfl
      | true => rw [hs, ha] at hbusy; contradiction
    refine ⟨ha, head, rest, rfl, ?_⟩
    exact hq.due head (by rw [hentries]; rfl) now (List.mem_cons_self ..)

end TransmitQueue

end TimedBridge
