import TimedBridge.Proofs.Bridge.Retry
import TimedBridge.Proofs.Simulation.Flow

/-!
How much is left to do in a simulation. The work weighs each access by where it is, and the events that
are no access's own; each step takes some of it away (`Flow.Step.work_lt`), unless the memory refuses
everything and something has to go through it. In that case it always will (`Flow.Step.blocked_iff`).
Time plays no part, since it may stand still at the last tick.
-/

namespace TimedBridge

/-! ### Refusals in a row -/

namespace Memory

/-- How often in a row a memory refuses from the given number on, if not always. -/
def balks (refuseEvery number : UInt32) : Nat :=
  if Refuses refuseEvery number then
    if Refuses refuseEvery (number + 1) then 2 else 1
  else 0

variable {refuseEvery number : UInt32}

/-- Two refusals in a row need the numbers to wrap, and after that the memory takes a request. -/
theorem not_refuses_thrice (hevery : refuseEvery ≠ 1) (h : Refuses refuseEvery number)
    (hnext : Refuses refuseEvery (number + 1)) : ¬ Refuses refuseEvery (number + 1 + 1) := by
  intro hlast
  have hdvd : ∀ n : UInt32, Refuses refuseEvery n → refuseEvery.toNat ∣ n.toNat := by
    intro n hn
    have hmod := congrArg UInt32.toNat hn.2
    rw [UInt32.toNat_mod] at hmod
    exact Nat.dvd_of_mod_eq_zero hmod
  have hone : ∀ n : Nat, refuseEvery.toNat ∣ n → refuseEvery.toNat ∣ n + 1 → False := by
    intro n hn hsucc
    have hdvd_one := (Nat.dvd_add_right hn).1 hsucc
    exact hevery (UInt32.toNat_inj.1 (Nat.dvd_one.1 hdvd_one))
  have hlt := number.toNat_lt
  have hwrap : (number + 1).toNat = number.toNat + 1 ∨ (number + 1).toNat = 0 := by
    rw [UInt32.toNat_add]
    change (number.toNat + 1) % 2 ^ 32 = _ ∨ (number.toNat + 1) % 2 ^ 32 = _
    omega
  rcases hwrap with hsucc | hzero
  · exact hone _ (hdvd _ h) (hsucc ▸ hdvd _ hnext)
  · have hfirst : (number + 1 + 1).toNat = 0 + 1 := by
      rw [UInt32.toNat_add, hzero]
      rfl
    exact hone 0 (Nat.dvd_zero _) (hfirst ▸ hdvd _ hlast)

theorem balks_le_two : balks refuseEvery number ≤ 2 := by
  rw [balks]
  split
  · split <;> decide
  · decide

/-- Each refusal uses one up. -/
theorem balks_succ_lt (hevery : refuseEvery ≠ 1) (h : Refuses refuseEvery number) :
    balks refuseEvery (number + 1) < balks refuseEvery number := by
  rw [balks.eq_def refuseEvery number, if_pos h]
  by_cases hnext : Refuses refuseEvery (number + 1)
  · rw [balks, if_pos hnext, if_neg (not_refuses_thrice hevery h hnext), if_pos hnext]
    decide
  · rw [balks, if_neg hnext, if_neg hnext]
    decide

end Memory

namespace Flow

/-! ### Work -/

/-- The work that is left. An access weighs less the further it has come, and each stage of it pays for
the events that its next move can bring about. -/
def work (v : Flow) : Nat :=
  14 * v.pending.length + 13 * v.queued.length + 5 * v.inService.length + 4 * v.returning +
    2 * Memory.balks v.refuseEvery (v.offered + 1) + 2 * v.issues.card + v.awaiting.toNat +
    (1 - v.retry.owed) + v.armed.isNone.toNat

variable {v v' : Flow}

/-- A retry costs an issue. -/
theorem work_wake_le (v : Flow) : v.wake.work ≤ v.work + 3 := by
  simp only [work, wake, RetryState.owed]
  cases v.retry with
  | idle => simp
  | pending =>
    simp only [if_true, Multiset.card_cons]
    omega

theorem Offers.work_lt (h : v.Offers v') (hevery : v.refuseEvery ≠ 1) : v'.work < v.work := by
  cases h with
  | @taken k rest hqueued htakes =>
    refine Nat.lt_of_le_of_lt (work_wake_le _) ?_
    have hbalks : Memory.balks v.refuseEvery (v.offered + 1 + 1) ≤ 2 := Memory.balks_le_two
    simp only [work, hqueued, List.length_append, List.length_cons, List.length_nil]
    omega
  | @refused k rest hqueued hrefuses =>
    have hbalks := Memory.balks_succ_lt hevery hrefuses
    simp only [work, Bool.toNat_true]
    omega

/-- Each access that is issued takes work away. -/
theorem Issues.work_lt (h : v.Issues v') : v'.work < v.work := by
  cases h with
  | gone hretry hpending =>
    simp only [work, hpending, List.length_cons]
    omega
  | admitted hretry hpending =>
    simp only [work, hpending, List.length_cons, List.length_append, List.length_nil]
    omega
  | refused hretry hpending =>
    simp only [work, hpending, hretry, List.length_cons, RetryState.owed]
    omega

theorem IssuesDue.work_le (h : IssuesDue v v') : v'.work ≤ v.work := by
  induction h with
  | done => exact Nat.le_refl _
  | next h _ ih => exact Nat.le_trans ih (Nat.le_of_lt h.work_lt)

/-- When the next access is due, it is issued. -/
theorem IssuesDue.work_lt (h : IssuesDue v v') (hretry : v.retry = .idle)
    (hdue : v.pending.head?.map Issue.tick = some v.now) : v'.work < v.work := by
  cases h with
  | done hends =>
    obtain ⟨i, hi, htick⟩ := Option.map_eq_some_iff.1 hdue
    rcases hends with hends | hends
    · exact nomatch hretry.symm.trans hends
    · exact absurd (htick ▸ hends i hi) (UInt64.lt_irrefl _)
  | next h hrest => exact Nat.lt_of_le_of_lt hrest.work_le h.work_lt

theorem work_disarm_le (v : Flow) (t : Tick) : (v.disarm t).work ≤ v.work + 1 := by
  have hle := (v.disarm t).armed.isNone.toNat_le
  simp only [work, disarm] at hle ⊢
  omega

/-- Arming costs an issue, and the next access is no longer without one. -/
theorem work_arm_le (harmed : v.armed = none) : v.arm.work ≤ v.work + 1 := by
  rw [arm]
  split
  · rw [if_neg (by simp [harmed])]
    simp only [work, harmed, Multiset.card_cons, Option.isNone_none, Option.isNone_some,
      Bool.toNat_true, Bool.toNat_false]
    omega
  · exact Nat.le_succ _

theorem Prompt.work_lt_of_issued (h : v.Prompt) {t : Tick} {rest : Multiset Tick}
    (hissues : v.issues = t ::ₘ rest) (hcurrent : ∀ u ∈ rest, t ≤ u)
    (hdue : IssuesDue ({ v with now := t, issues := rest }.disarm t) v') :
    v'.arm.work < v.work := by
  have hpop : { v with now := t, issues := rest }.work + 2 = v.work := by
    simp only [work, hissues, Multiset.card_cons]
    omega
  have harmed : v'.armed = if v.armed = some t then none else v.armed := hdue.armed_eq
  cases hu : v.armed with
  | none =>
    rw [hu, ite_self] at harmed
    rw [disarm_eq (by simp [hu])] at hdue
    have hle := hdue.work_le
    have harm := work_arm_le harmed
    omega
  | some u =>
    by_cases hut : u = t
    · -- The issue is that of the next access, which is due.
      subst hut
      obtain ⟨-, hretry, hhead⟩ := h.armed u hu
      rw [if_pos hu] at harmed
      have hlt := hdue.work_lt hretry hhead
      have hdisarm := { v with now := u, issues := rest }.work_disarm_le u
      have harm := work_arm_le harmed
      omega
    · rw [(h.arm_of_later hissues hcurrent hu hut hdue).1]
      omega

/-! ### Blocked simulations -/

/-- Something has to go through the memory. -/
def Blocked (v : Flow) : Prop := v.queued ≠ [] ∨ ∃ i ∈ v.pending, v.Crosses i

/-- The memory does not refuse everything, or nothing has to go through it. -/
def Ending (v : Flow) : Prop := v.refuseEvery ≠ 1 ∨ ¬ v.Blocked

theorem refuses_one (number : UInt32) : Memory.Refuses 1 number := by
  refine ⟨by decide, ?_⟩
  rw [← UInt32.toNat_inj, UInt32.toNat_mod]
  exact Nat.mod_one _

/-- A memory that refuses everything leaves things as they are. -/
theorem Offers.of_refusing (h : v.Offers v') (hevery : v.refuseEvery = 1) :
    v.queued ≠ [] ∧ (v'.Blocked ↔ v.Blocked) := by
  cases h with
  | taken hqueued htakes => exact absurd (hevery ▸ refuses_one _) htakes
  | refused hqueued =>
    refine ⟨?_, Iff.rfl⟩
    rw [hqueued]
    exact List.cons_ne_nil _ _

theorem Issues.blocked_iff (h : v.Issues v') : v'.Blocked ↔ v.Blocked := by
  cases h with
  | @gone i rest hretry hpending hdue hmode =>
    change (v.queued ≠ [] ∨ ∃ j ∈ rest, v.Crosses j) ↔ v.queued ≠ [] ∨ ∃ j ∈ v.pending, v.Crosses j
    rw [hpending, List.exists_mem_cons_iff, or_iff_right hmode]
  | @admitted i rest hretry hpending hdue hmode =>
    refine iff_of_true (.inl ?_) (.inr ⟨i, ?_, hmode⟩)
    · exact List.append_ne_nil_of_right_ne_nil _ (List.cons_ne_nil _ _)
    · exact hpending ▸ List.mem_cons_self
  | @refused i rest hretry hpending hdue hmode =>
    exact iff_of_true (.inr ⟨_, List.mem_cons_self, hmode⟩)
      (.inr ⟨i, hpending ▸ List.mem_cons_self, hmode⟩)

theorem IssuesDue.blocked_iff (h : IssuesDue v v') : v'.Blocked ↔ v.Blocked := by
  induction h with
  | done => exact Iff.rfl
  | next h _ ih => exact ih.trans h.blocked_iff

theorem blocked_arm_iff (v : Flow) : v.arm.Blocked ↔ v.Blocked := by
  rw [arm]
  split
  · split <;> exact Iff.rfl
  · exact Iff.rfl

/-- Before a memory that refuses everything, a step neither blocks nor unblocks. -/
theorem Step.blocked_iff (h : v.Step v') (hevery : v.refuseEvery = 1) : v'.Blocked ↔ v.Blocked := by
  cases h with
  | offered t hawaiting hoffers => exact (hoffers.of_refusing hevery).2
  | retried t hretries hoffers => exact (hoffers.of_refusing hevery).2
  | issued t hissues hcurrent hdue => exact (blocked_arm_iff _).trans hdue.blocked_iff
  | _ => exact Iff.rfl

theorem IssuesDue.refuseEvery_eq (h : IssuesDue v v') : v'.refuseEvery = v.refuseEvery := by
  induction h with
  | done => rfl
  | next h _ ih => exact ih.trans (by cases h <;> rfl)

theorem refuseEvery_arm (v : Flow) : v.arm.refuseEvery = v.refuseEvery := by
  rw [arm]
  split
  · split <;> rfl
  · rfl

theorem Step.refuseEvery_eq (h : v.Step v') : v'.refuseEvery = v.refuseEvery := by
  cases h with
  | offered t hawaiting hoffers => cases hoffers <;> rfl
  | retried t hretries hoffers => cases hoffers <;> rfl
  | issued t hissues hcurrent hdue => exact (refuseEvery_arm _).trans hdue.refuseEvery_eq
  | _ => rfl

theorem Step.ending_iff (h : v.Step v') : v'.Ending ↔ v.Ending := by
  rw [Ending, Ending, h.refuseEvery_eq]
  by_cases hevery : v.refuseEvery = 1
  · rw [h.blocked_iff hevery]
  · simp only [ne_eq, hevery, not_false_eq_true, true_or]

theorem Offers.work_lt_of_ending (h : v.Offers v') (hending : v.Ending) : v'.work < v.work := by
  by_cases hevery : v.refuseEvery = 1
  · have hqueued := (h.of_refusing hevery).1
    exact absurd (.inl hqueued) (hending.resolve_left fun hne => hne hevery)
  · exact h.work_lt hevery

/-- Every step takes work away, unless the memory refuses everything and something has to go through
it. -/
theorem Step.work_lt (h : v.Step v') (hsettled : v.Settled) (hending : v.Ending) :
    v'.work < v.work := by
  have hretries := hsettled.served.retries
  cases h with
  | @returned t returning hreturning =>
    have hwake := { v with now := t, returning }.work_wake_le
    simp only [work, hreturning] at hwake ⊢
    omega
  | returnedFull t hreturning =>
    simp only [work, hreturning]
    omega
  | @offered t v' hawaiting hoffers =>
    exact hoffers.work_lt_of_ending hending
  | @retried t retries v' hretried hoffers =>
    refine Nat.lt_of_lt_of_le (hoffers.work_lt_of_ending hending) ?_
    simp only [work, Bool.toNat_false]
    omega
  | retriedEarly t hretried =>
    simp only [work, Bool.toNat_false]
    omega
  | answered t hcount hinService =>
    simp only [work, hinService, List.length_cons]
    omega
  | performed t hcount hinService =>
    simp only [work, hinService, List.length_cons]
    omega
  | issued t hissues hcurrent hdue => exact hsettled.prompt.work_lt_of_issued hissues hcurrent hdue

end Flow

end TimedBridge
