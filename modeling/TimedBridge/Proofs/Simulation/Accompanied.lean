import TimedBridge.Proofs.Simulation.Running

/-!
Simulations in which each functional access comes at the tick of another access. With the functional
accesses left out, the next access is due at the same ticks (`Flow.due_head`), so that the same events
are scheduled in the same order.
-/

namespace TimedBridge

/-! ### Accesses to come -/

namespace Flow

/-- The accesses that are not due yet come in the order of their ticks, and each functional one of them
comes at the tick of another one. -/
structure Accompanied (v : Flow) : Prop where
  ordered : v.pending.Pairwise fun i j => i.tick ≤ j.tick ∨ i.tick ≤ v.now
  company : ∀ i ∈ v.pending, i.mode = .functional →
    i.tick ≤ v.now ∨ ∃ j ∈ v.pending, j.mode ≠ .functional ∧ j.tick = i.tick

/-- Without the accesses that are left out, the next access is due at the same tick. -/
theorem due_head {shows : AccessMode → Bool} {now : Tick} {pending : List Issue}
    (hordered : pending.Pairwise fun i j => i.tick ≤ j.tick ∨ i.tick ≤ now)
    (hcompany : ∀ i ∈ pending.head?, shows i.mode = false →
      ∃ j ∈ pending, shows j.mode = true ∧ j.tick = i.tick) :
    (pending.filter (shows ·.mode)).head?.map (fun i => max i.tick now) =
      pending.head?.map fun i => max i.tick now := by
  cases pending with
  | nil => rfl
  | cons i rest =>
    cases hmode : shows i.mode with
    | false =>
      obtain ⟨hfirst, hrest⟩ := List.pairwise_cons.1 hordered
      obtain ⟨j, hj, hcounts, hsame⟩ := hcompany i rfl hmode
      have hj' : j ∈ rest.filter (shows ·.mode) := by
        have hne : j ≠ i := fun heq => by simp [heq, hmode] at hcounts
        exact List.mem_filter.2 ⟨(List.mem_cons.1 hj).resolve_left hne, hcounts⟩
      rw [List.filter_cons_of_neg (by simp [hmode])]
      -- The first access that is left comes between the one left out and the one at its tick.
      cases hleft : rest.filter (shows ·.mode) with
      | nil =>
        rw [hleft] at hj'
        cases hj'
      | cons k others =>
        have hk : k ∈ rest := by
          have hmem : k ∈ rest.filter (shows ·.mode) := hleft ▸ List.mem_cons_self
          exact (List.mem_filter.1 hmem).1
        have hlater := hfirst k hk
        have hearlier : k.tick ≤ i.tick ∨ k.tick ≤ now := by
          have hothers := hrest.filter fun i : Issue => shows i.mode
          rw [hleft] at hj' hothers
          rcases List.mem_cons.1 hj' with rfl | hj'
          · exact .inl (hsame ▸ UInt64.le_refl _)
          · exact hsame ▸ (List.pairwise_cons.1 hothers).1 j hj'
        refine congrArg some (UInt64.toNat_inj.1 ?_)
        rw [toNat_max, toNat_max]
        simp only [UInt64.le_iff_toNat_le] at hlater hearlier
        omega
    | true =>
      rw [List.filter_cons_of_pos (by simp [hmode])]
      rfl

variable {v v' : Flow}

theorem Accompanied.later (h : v.Accompanied) (hnow : v.now ≤ v'.now) (hpending : v'.pending = v.pending) :
    v'.Accompanied := by
  obtain ⟨hordered, hcompany⟩ := h
  refine ⟨?_, ?_⟩
  · rw [hpending]
    exact hordered.imp fun h => h.imp_right fun hdue => UInt64.le_trans hdue hnow
  · rw [hpending]
    intro i hi hmode
    exact (hcompany i hi hmode).imp_left fun hdue => UInt64.le_trans hdue hnow

theorem Accompanied.next (h : v.Accompanied) {i : Issue} {rest : List Issue}
    (hpending : v.pending = i :: rest) (hdue : i.tick ≤ v.now) (hnow : v'.now = v.now)
    (hrest : v'.pending = rest) : v'.Accompanied := by
  obtain ⟨hordered, hcompany⟩ := h
  rw [hpending] at hordered hcompany
  refine ⟨?_, ?_⟩
  · rw [hrest, hnow]
    exact (List.pairwise_cons.1 hordered).2
  · rw [hrest, hnow]
    intro k hk hmode
    rcases hcompany k (.tail i hk) hmode with hlate | ⟨j, hj, hcounts, hsame⟩
    · exact .inl hlate
    · rcases List.mem_cons.1 hj with rfl | hj
      · exact .inl (hsame ▸ hdue)
      · exact .inr ⟨j, hj, hcounts, hsame⟩

theorem Issues.accompanied (h : v.Issues v') (hv : v.Accompanied) : v'.Accompanied := by
  cases h with
  | gone hretry hpending hdue => exact hv.next hpending hdue rfl rfl
  | admitted hretry hpending hdue => exact hv.next hpending hdue rfl rfl
  | @refused i rest hretry hpending hdue hmode =>
    have hnext : { v with pending := rest }.Accompanied := hv.next hpending hdue rfl rfl
    obtain ⟨hordered, hcompany⟩ := hnext
    refine ⟨List.pairwise_cons.2 ⟨fun j _ => .inr (UInt64.le_refl _), hordered⟩, ?_⟩
    refine List.forall_mem_cons.2 ⟨fun _ => .inl (UInt64.le_refl _), fun k hk hkmode => ?_⟩
    refine (hcompany k hk hkmode).imp_right ?_
    rintro ⟨j, hj, hcounts, hsame⟩
    exact ⟨j, .tail _ hj, hcounts, hsame⟩

theorem IssuesDue.accompanied (h : IssuesDue v v') (hv : v.Accompanied) : v'.Accompanied := by
  induction h with
  | done => exact hv
  | next h _ ih => exact ih (h.accompanied hv)

theorem Accompanied.arm (h : v.Accompanied) : v.arm.Accompanied := by
  rw [Flow.arm]
  split
  · split
    · exact h
    · exact ⟨h.ordered, h.company⟩
  · exact h

theorem IssuesDue.now_eq (h : IssuesDue v v') : v'.now = v.now := by
  induction h with
  | done => rfl
  | next h _ ih => exact ih.trans (by cases h <;> rfl)

theorem Offers.pending_eq (h : v.Offers v') : v'.pending = v.pending := by
  cases h <;> rfl

theorem Step.accompanied (h : v.Step v') (hnow : v.now ≤ v'.now) (hv : v.Accompanied) :
    v'.Accompanied := by
  cases h with
  | returned => exact hv.later hnow rfl
  | returnedFull => exact hv.later hnow rfl
  | offered t hawaiting hoffers => exact hv.later hnow hoffers.pending_eq
  | retried t hretries hoffers => exact hv.later hnow hoffers.pending_eq
  | retriedEarly => exact hv.later hnow rfl
  | answered => exact hv.later hnow rfl
  | performed => exact hv.later hnow rfl
  | @issued t rest w hissues hcurrent hdue =>
    have hlater : v.now ≤ t := by
      rwa [now_arm, hdue.now_eq] at hnow
    exact (hdue.accompanied (hv.later hlater rfl)).arm

/-- With nothing due, nothing that comes later is. -/
theorem early_of_head {now : Tick} {pending : List Issue}
    (hordered : pending.Pairwise fun i j => i.tick ≤ j.tick ∨ i.tick ≤ now)
    (hearly : ∀ i ∈ pending.head?, now < i.tick) : ∀ i ∈ pending, now < i.tick := by
  cases pending with
  | nil => simp
  | cons i rest =>
    have hfirst := hearly i rfl
    refine List.forall_mem_cons.2 ⟨hfirst, fun j hj => ?_⟩
    rcases (List.pairwise_cons.1 hordered).1 j hj with hlater | hdue
    · exact UInt64.lt_of_lt_of_le hfirst hlater
    · exact absurd hfirst (UInt64.not_lt.2 hdue)

theorem Issues.next_or_pending (h : v.Issues v') {i : Issue} {rest : List Issue}
    (hpending : v.pending = i :: rest) : v'.pending = rest ∨ v'.retry = .pending := by
  cases h with
  | gone hretry hpending' => exact .inl (List.cons.inj (hpending'.symm.trans hpending)).2
  | admitted hretry hpending' => exact .inl (List.cons.inj (hpending'.symm.trans hpending)).2
  | refused => exact .inr rfl

end Flow

namespace Simulation

variable {s : Simulation} {g : Generator} {m : Memory} {tick : Tick} {event : SimEvent}
  {agenda : Agenda SimEvent}

/-! ### Time -/

theorem le_of_pop (hpop : s.agenda.pop? = some (tick, event, agenda)) : s.now ≤ agenda.now := by
  obtain ⟨serial, hpending, hnow, -⟩ := Agenda.pending_of_pop hpop
  rw [hnow]
  exact (s.agenda.current _ (hpending ▸ List.mem_cons_self)).1

theorem now_finish (s : Simulation) (o : Call Generator Memory Unit) : (s.finish o).1.now = s.now :=
  ({ s with bridge := o.state }.rest_scheduleAsked o.effects).1

theorem now_completeOldest (s : Simulation) : s.completeOldest.1.now = s.now := by
  rw [completeOldest]
  split
  next => rfl
  next =>
    split
    next => rfl
    next => exact now_finish _ _

theorem now_issue (hdriven : s.Driven) (hjoins : s.bridge.Joins g m)
    (hconsistent : (s.flow g m).Consistent) : s.issue.1.now = s.now := by
  obtain ⟨t, g', m', hresult, -, -, v, hdue, harm⟩ := carried_disarm hdriven hjoins hconsistent
  have hnow : (t.flow g' m').now = ((s.flow g m).disarm s.now).now := by
    rw [harm, Flow.now_arm, hdue.now_eq]
  rw [hresult]
  exact hnow

/-- Only taking an event moves the clock. -/
theorem Running.now_dispatch (h : s.Running g m)
    (hpop : s.agenda.pop? = some (tick, event, agenda)) :
    ({ s with agenda }.dispatch event).1.now = agenda.now := by
  cases event with
  | send d => exact now_finish _ _
  | complete => exact now_completeOldest _
  | memoryRetry => exact now_finish _ _
  | issue =>
    have hdriven := h.driven.popped hpop (by simp)
    exact now_issue hdriven h.joins (consistent_popped h.consistent agenda)

/-- Time does not run backwards. -/
theorem Running.now_le_step (h : s.Running g m) : s.now ≤ s.step.1.now := by
  cases hpop : s.agenda.pop? with
  | none =>
    rw [Simulation.step, hpop]
    exact UInt64.le_refl _
  | some popped =>
    obtain ⟨tick, event, agenda⟩ := popped
    obtain ⟨s₁, g₁, m₁, hresult, hdriven, hjoins, -⟩ := h.carried hpop
    obtain ⟨s₂, hlook, hshows⟩ := shows_lookAfter ⟨hdriven, hjoins, rfl⟩
    have hnow : s₁.now = agenda.now := by
      rw [← h.now_dispatch hpop, hresult]
    have hlooked : s₂.now = s₁.now := congrArg Flow.now hshows.flow_eq
    rw [Simulation.step, hpop]
    simp only [hresult, hlook]
    rw [hlooked, hnow]
    exact le_of_pop hpop

end Simulation

end TimedBridge
