import TimedBridge.Proofs.TransmitQueue.Wake

/-!
A queue whose packets leave on time. As long as the agent refuses nothing, the packets may leave in the
order in which they wait, none of them before now, and the attempt that is scheduled is for the very
tick from which the head may leave (`Prompt`). An attempt is only ever asked for the head that waits
after the call (`Sending.forHead`, `Move.forHead`).
-/

namespace TimedBridge

namespace TransmitQueue

/-- A queue at `now` whose attempts are scheduled for the ticks `dues` and that holds nothing which may
leave only after `latest`: it waits for no retry, its packets may leave in their order, none earlier
than now, and no attempt comes after the head may leave. -/
structure Prompt (q : TransmitQueue) (now latest : Tick) (dues : List Tick) : Prop where
  content : q.awaitingRetry = false
  sorted : (q.entries.map Deferred.ready).Pairwise (· ≤ ·)
  ahead : ∀ ready ∈ q.entries.map Deferred.ready, now ≤ ready
  reach : ∀ ready ∈ q.entries.map Deferred.ready, ready ≤ latest
  due : ∀ ready ∈ (q.entries.map Deferred.ready).head?, ∀ due ∈ dues, due ≤ ready

variable {q q' : TransmitQueue} {now latest : Tick} {asks dues dues' : List Tick}
  {offers : List (Direction × Packet × Bool)}

/-! ### What a queue asks for -/

/-- The ticks are for the head of the queue, or for now when it may leave already. -/
def ForHead (q : TransmitQueue) (now : Tick) (asks : List Tick) : Prop :=
  ∀ tick ∈ asks, ∃ ready ∈ (q.entries.map Deferred.ready).head?, tick ≤ max ready now

theorem forHead_nil (q : TransmitQueue) (now : Tick) : q.ForHead now [] :=
  fun _ h => absurd h List.not_mem_nil

theorem forHead_asks (ready : Tick) (rest : List Tick)
    (hq : q'.entries.map Deferred.ready = ready :: rest) {tick : Tick} (h : tick ≤ max ready now) :
    q'.ForHead now (q.asks tick) := by
  intro asked hasked
  rw [TransmitQueue.asks] at hasked
  split at hasked
  next => exact absurd hasked List.not_mem_nil
  next =>
    obtain rfl := List.mem_singleton.1 hasked
    exact ⟨ready, by rw [hq]; rfl, h⟩

theorem Sending.forHead (h : q.Sending now asks offers q') : q'.ForHead now asks := by
  cases h with
  | empty => exact forHead_nil _ _
  | @early head rest h =>
    refine forHead_asks head.ready (rest.map Deferred.ready) ?_
      (le_max_of_le (UInt64.le_refl _))
    rw [h]
    rfl
  | refused => exact forHead_nil _ _
  | last => exact forHead_nil _ _
  | taken => exact forHead_asks _ _ rfl (UInt64.le_refl _)

/-- A queue that awaits no retry and makes a move asks for an attempt for its head only. -/
theorem Move.forHead (h : q.Move now asks q') (hq : q.awaitingRetry = false) : q'.ForHead now asks := by
  cases h with
  | rest => exact forHead_nil _ _
  | snoop => exact forHead_nil _ _
  | push packet ready hroom =>
    cases hempty : q.isEmpty with
    | false => exact forHead_nil _ _
    | true =>
      refine forHead_asks ready [] ?_ (le_max_of_le (UInt64.le_refl _))
      rw [entries_push packet ready hroom, List.isEmpty_iff.1 hempty]
      rfl
  | retry hawaiting =>
    rw [hq] at hawaiting
    contradiction

/-! ### Awaiting a retry -/

theorem Sending.content (h : q.Sending now asks offers q') (hq : q.awaitingRetry = false)
    (htaken : ∀ packet, (q.direction, packet, false) ∉ offers) : q'.awaitingRetry = false := by
  cases h with
  | refused => exact absurd (List.mem_singleton_self _) (htaken _)
  | _ => exact hq

theorem Move.content (h : q.Move now asks q') (hq : q.awaitingRetry = false) :
    q'.awaitingRetry = false := by
  cases h with
  | rest => exact hq
  | snoop h =>
    rw [h.shell]
    exact hq
  | push packet ready hroom => exact (awaitingRetry_push packet ready hroom).trans hq
  | retry hawaiting =>
    rw [hq] at hawaiting
    contradiction

/-! ### Time and calls -/

/-- Time goes on to a tick that no waiting packet may leave before. -/
theorem Prompt.later (h : q.Prompt now latest dues) {tick latest' : Tick} (hlatest : latest ≤ latest')
    (htick : ∀ ready ∈ (q.entries.map Deferred.ready).head?, tick ≤ ready) (hdues : dues' ⊆ dues) :
    q.Prompt tick latest' dues' := by
  refine ⟨h.content, h.sorted, ?_, fun ready hready => UInt64.le_trans (h.reach ready hready) hlatest,
    fun ready hready due hdue => h.due ready hready due (hdues hdue)⟩
  have hsorted := h.sorted
  cases hentries : q.entries.map Deferred.ready with
  | nil => exact fun _ hmem => absurd hmem List.not_mem_nil
  | cons first rest =>
    rw [hentries] at htick hsorted
    have hfirst : tick ≤ first := htick first rfl
    intro ready hready
    rcases List.mem_cons.1 hready with rfl | hrest
    · exact hfirst
    · exact UInt64.le_trans hfirst (List.rel_of_pairwise_cons hsorted hrest)

theorem Prompt.perm (h : q.Prompt now latest dues) (hp : dues.Perm dues') :
    q.Prompt now latest dues' :=
  ⟨h.content, h.sorted, h.ahead, h.reach, fun ready hready due hdue =>
    h.due ready hready due (hp.mem_iff.2 hdue)⟩

/-- The ticks that are asked for the head are not after it may leave. -/
theorem le_of_mem_asked {ready : Tick} (hasks : q.ForHead now asks)
    (hready : ready ∈ (q.entries.map Deferred.ready).head?) (hahead : now ≤ ready) {due : Tick}
    (hdue : due ∈ asks.map (max · now)) : due ≤ ready := by
  obtain ⟨tick, htick, rfl⟩ := List.mem_map.1 hdue
  obtain ⟨first, hfirst, hle⟩ := hasks tick htick
  obtain rfl := Option.some.inj (hfirst.symm.trans hready)
  rw [UInt64.le_iff_toNat_le, toNat_max] at hle ⊢
  rw [UInt64.le_iff_toNat_le] at hahead
  omega

/-- The packets that wait keep their places. -/
theorem Prompt.stay (h : q.Prompt now latest dues) (hcontent : q'.awaitingRetry = false)
    (hready : q'.entries.map Deferred.ready = q.entries.map Deferred.ready)
    (hasks : q'.ForHead now asks) : q'.Prompt now latest (asks.map (max · now) ++ dues) := by
  refine ⟨hcontent, hready ▸ h.sorted, hready ▸ h.ahead, hready ▸ h.reach, ?_⟩
  intro ready hhead due hdue
  rcases List.mem_append.1 hdue with hasked | hold
  · refine le_of_mem_asked hasks hhead ?_ hasked
    exact h.ahead ready (hready ▸ List.mem_of_mem_head? hhead)
  · exact h.due ready (hready ▸ hhead) due hold

/-- A packet joins that may leave last. -/
theorem Prompt.join (h : q.Prompt now latest dues) (hcontent : q'.awaitingRetry = false)
    (hready : q'.entries.map Deferred.ready = q.entries.map Deferred.ready ++ [latest])
    (hlatest : now ≤ latest) (hidle : q.entries = [] → dues = []) (hasks : q'.ForHead now asks) :
    q'.Prompt now latest (asks.map (max · now) ++ dues) := by
  have hahead : ∀ ready ∈ q'.entries.map Deferred.ready, now ≤ ready := by
    intro ready hmem
    rw [hready] at hmem
    rcases List.mem_append.1 hmem with hold | hnew
    · exact h.ahead ready hold
    · exact List.mem_singleton.1 hnew ▸ hlatest
  refine ⟨hcontent, ?_, hahead, ?_, ?_⟩
  · rw [hready, List.pairwise_append]
    refine ⟨h.sorted, List.pairwise_singleton .., fun ready hold last hnew => ?_⟩
    exact List.mem_singleton.1 hnew ▸ h.reach ready hold
  · intro ready hmem
    rw [hready] at hmem
    rcases List.mem_append.1 hmem with hold | hnew
    · exact h.reach ready hold
    · exact List.mem_singleton.1 hnew ▸ UInt64.le_refl latest
  · intro ready hhead due hdue
    rcases List.mem_append.1 hdue with hasked | hold
    · exact le_of_mem_asked hasks hhead (hahead ready (List.mem_of_mem_head? hhead)) hasked
    · cases hentries : q.entries with
      | nil =>
        rw [hidle hentries] at hold
        exact absurd hold List.not_mem_nil
      | cons first rest =>
        -- The head is the one that waited before, and the attempt is for it.
        rw [hready, hentries] at hhead
        exact h.due ready (by rw [hentries]; exact hhead) due hold

/-- The head leaves when no attempt is scheduled. -/
theorem Prompt.leave (h : q.Prompt now latest []) (hcontent : q'.awaitingRetry = false)
    {head : Deferred} (hentries : q.entries = head :: q'.entries) (hasks : q'.ForHead now asks) :
    q'.Prompt now latest (asks.map (max · now) ++ []) := by
  obtain ⟨-, hsorted, hahead, hreach, -⟩ := h
  rw [hentries, List.map_cons] at hsorted hahead hreach
  refine ⟨hcontent, (List.pairwise_cons.1 hsorted).2, fun ready hmem => hahead ready (.tail _ hmem),
    fun ready hmem => hreach ready (.tail _ hmem), ?_⟩
  intro ready hhead due hdue
  rw [List.append_nil] at hdue
  exact le_of_mem_asked hasks hhead (hahead ready (.tail _ (List.mem_of_mem_head? hhead))) hdue

end TransmitQueue

end TimedBridge
