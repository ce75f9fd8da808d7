import TimedBridge.Proofs.Simulation.Accompanied

/-!
A generator that issues its accesses as early as it may. The next access is to be taken as soon as it is
due and the one before it is done with, and one that is handed back at the very tick of the retry: so at
any time it is settled when that will be (`Duty`). The flow of a simulation keeps to it (`Flow.Follows`),
and unless a retry is owed the next access has its issue scheduled (`Flow.Scheduled`).
-/

namespace TimedBridge

/-- What a generator is to do next. -/
structure Duty where
  /-- The tick at which the next access is to be taken; none while it waits for its retry. -/
  due : Option Tick
  /-- The accesses that are not done with. -/
  left : List Issue

namespace Duty

/-- The duty of a generator that has come to the accesses `left` at `tick`. -/
def reached (tick : Tick) (left : List Issue) : Duty where
  due := some (left.head?.elim tick fun i => max i.tick tick)
  left

/-- What a generator that does its duty goes through next. -/
inductive Step : Duty → Occasion → Duty → Prop
  | settled {i : Issue} {rest : List Issue} {tick : Tick} :
      Step ⟨some tick, i :: rest⟩ (.settled i.packet.id tick) (reached tick rest)
  | refused {i : Issue} {rest : List Issue} {tick : Tick} :
      Step ⟨some tick, i :: rest⟩ (.refused i.packet.id tick) ⟨none, i :: rest⟩
  /-- The access that was handed back is to be taken at once. -/
  | notified {left : List Issue} {tick : Tick} : Step ⟨none, left⟩ (.notified tick) ⟨some tick, left⟩

/-- What a generator that does its duty goes through. -/
inductive Met : Duty → List Occasion → Duty → Prop
  | nil (d : Duty) : Met d [] d
  | cons {d d' d'' : Duty} {occasion : Occasion} {log : List Occasion} (h : d.Step occasion d')
      (hrest : Met d' log d'') : Met d (occasion :: log) d''

variable {d d' d'' : Duty} {log more : List Occasion}

theorem Met.append (h : d.Met log d') (h' : d'.Met more d'') : d.Met (log ++ more) d'' := by
  induction h with
  | nil => exact h'
  | cons h _ ih => exact .cons h (ih h')

end Duty

/-! ### Accesses that were handed back -/

/-- The access `j` is `i`, which may have been handed back at a tick up to `now` and stands under that
tick since. -/
def Issue.PutBack (now : Tick) (i j : Issue) : Prop :=
  j = i ∨ ∃ tick, i.tick ≤ tick ∧ tick ≤ now ∧ j = { i with tick }

/-- What time does not pass stays the later of two ticks. -/
theorem max_eq_of_not_passed {tick now later : Tick} (hnow : now ≤ later) (hlater : later ≤ max tick now) :
    max tick later = max tick now := by
  refine UInt64.toNat_inj.1 ?_
  rw [UInt64.le_iff_toNat_le, toNat_max] at hlater
  rw [UInt64.le_iff_toNat_le] at hnow
  rw [toNat_max, toNat_max]
  omega

namespace Issue

variable {now later : Tick} {i j : Issue}

theorem PutBack.packet_eq (h : PutBack now i j) : j.packet = i.packet := by
  rcases h with rfl | ⟨tick, -, -, rfl⟩ <;> rfl

theorem PutBack.mono (h : PutBack now i j) (hlater : now ≤ later) : PutBack later i j :=
  h.imp_right fun ⟨tick, hfirst, hnow, heq⟩ => ⟨tick, hfirst, UInt64.le_trans hnow hlater, heq⟩

/-- It may be issued from the same tick on. -/
theorem PutBack.max_eq (h : PutBack now i j) : max i.tick now = max j.tick now := by
  rcases h with rfl | ⟨tick, hfirst, hnow, rfl⟩
  · rfl
  · exact (max_eq_of_ge (UInt64.le_trans hfirst hnow)).trans (max_eq_of_ge hnow).symm

/-- One that is due may be handed back now. -/
theorem PutBack.again (h : PutBack now i j) (hdue : j.tick ≤ now) :
    PutBack now i { j with tick := now } := by
  rcases h with rfl | ⟨tick, hfirst, hnow, rfl⟩
  · exact .inr ⟨now, hdue, UInt64.le_refl _, rfl⟩
  · exact .inr ⟨now, UInt64.le_trans hfirst hnow, UInt64.le_refl _, rfl⟩

end Issue

namespace Flow

variable {v v' : Flow} {d : Duty} {log : List Occasion}

/-! ### Doing the duty -/

/-- The generator has the duty `d` before it. -/
structure Follows (v : Flow) (d : Duty) : Prop where
  left : List.Forall₂ (Issue.PutBack v.now) d.left v.pending
  owed : v.retry = .pending → d.due = none ∧ ∀ i ∈ v.pending.head?, i.tick ≤ v.now
  free : v.retry = .idle → ∃ tick, d.due = some tick ∧ ∀ i ∈ v.pending.head?, tick = max i.tick v.now

/-- Time does not pass the tick at which the next access is due. -/
theorem Follows.later (h : v.Follows d) (hpending : v'.pending = v.pending) (hretry : v'.retry = v.retry)
    (hnow : v.now ≤ v'.now)
    (hdue : v.retry = .idle → ∀ i ∈ v.pending.head?, v'.now ≤ max i.tick v.now) : v'.Follows d := by
  obtain ⟨hleft, howed, hfree⟩ := h
  refine ⟨?_, ?_, ?_⟩
  · rw [hpending]
    exact hleft.imp fun _ _ hback => hback.mono hnow
  · rw [hpending, hretry]
    intro hretry
    obtain ⟨hnone, hhead⟩ := howed hretry
    exact ⟨hnone, fun i hi => UInt64.le_trans (hhead i hi) hnow⟩
  · rw [hpending, hretry]
    intro hretry
    obtain ⟨tick, htick, hhead⟩ := hfree hretry
    refine ⟨tick, htick, fun i hi => ?_⟩
    rw [hhead i hi, max_eq_of_not_passed hnow (hdue hretry i hi)]

/-- A generator that is owed nothing has come to the accesses that it has before it. -/
theorem follows_reached (hretry : v.retry = .idle) {left : List Issue}
    (hleft : List.Forall₂ (Issue.PutBack v.now) left v.pending) : v.Follows (.reached v.now left) := by
  refine ⟨hleft, fun howed => (nomatch hretry.symm.trans howed), fun _ => ⟨_, rfl, fun i hi => ?_⟩⟩
  obtain ⟨rest, hpending⟩ := List.head?_eq_some_iff.1 hi
  rw [hpending] at hleft
  obtain ⟨i₀, left, hback, -, rfl⟩ := List.forall₂_cons_right_iff.1 hleft
  exact hback.max_eq

/-- An access that is due is to be taken now. -/
theorem Follows.due (h : v.Follows d) (hretry : v.retry = .idle) {i : Issue} {rest : List Issue}
    (hpending : v.pending = i :: rest) (hdue : i.tick ≤ v.now) :
    ∃ i₀ left, d = ⟨some v.now, i₀ :: left⟩ ∧ i₀.PutBack v.now i ∧
      List.Forall₂ (Issue.PutBack v.now) left rest := by
  obtain ⟨due, left⟩ := d
  obtain ⟨hleft, -, hfree⟩ := h
  obtain ⟨tick, rfl, htick⟩ := hfree hretry
  rw [hpending] at hleft htick
  obtain ⟨i₀, left, hback, hbehind, rfl⟩ := List.forall₂_cons_right_iff.1 hleft
  have hnow : tick = v.now := (htick i rfl).trans (max_eq_of_ge hdue)
  exact ⟨i₀, left, by rw [hnow], hback, hbehind⟩

/-- An access that is taken and done with is the duty, and brings the generator to the next one. -/
theorem Follows.settled (h : v.Follows d) (hretry : v.retry = .idle) {i : Issue} {rest : List Issue}
    (hpending : v.pending = i :: rest) (hdue : i.tick ≤ v.now) (hnow : v'.now = v.now)
    (hretry' : v'.retry = .idle) (hpending' : v'.pending = rest) :
    ∃ d', d.Step (.taken i.packet.id v.now v'.retry) d' ∧ v'.Follows d' := by
  obtain ⟨i₀, left, rfl, hback, hbehind⟩ := h.due hretry hpending hdue
  refine ⟨.reached v'.now left, ?_, follows_reached hretry' ?_⟩
  · rw [hretry', hback.packet_eq, hnow]
    exact .settled
  · rw [hnow, hpending']
    exact hbehind

/-- The generator does its duty when it hands out an access. -/
theorem Issues.follows (h : v.Issues v') (hv : v.Follows d) {i : Issue} {rest : List Issue}
    (hpending : v.pending = i :: rest) :
    ∃ d', d.Step (.taken i.packet.id v.now v'.retry) d' ∧ v'.Follows d' := by
  cases h with
  | gone hretry hpending' hdue =>
    obtain ⟨rfl, rfl⟩ := List.cons.inj (hpending.symm.trans hpending')
    exact hv.settled hretry hpending hdue rfl hretry rfl
  | admitted hretry hpending' hdue =>
    obtain ⟨rfl, rfl⟩ := List.cons.inj (hpending.symm.trans hpending')
    exact hv.settled hretry hpending hdue rfl hretry rfl
  | refused hretry hpending' hdue =>
    obtain ⟨rfl, rfl⟩ := List.cons.inj (hpending.symm.trans hpending')
    obtain ⟨i₀, left, rfl, hback, hbehind⟩ := hv.due hretry hpending hdue
    refine ⟨⟨none, i₀ :: left⟩, ?_, ?_, fun _ => ⟨rfl, fun j hj => ?_⟩, nofun⟩
    · rw [hback.packet_eq]
      exact .refused
    · exact .cons (hback.again hdue) hbehind
    · obtain rfl := Option.some.inj hj
      exact UInt64.le_refl _

theorem Takes.follows (h : v.Takes log v') (hv : v.Follows d) : ∃ d', d.Met log d' ∧ v'.Follows d' := by
  induction h generalizing d with
  | done => exact ⟨d, .nil d, hv⟩
  | next hpending h _ ih =>
    obtain ⟨d₁, hstep, hfollows⟩ := h.follows hv hpending
    obtain ⟨d', hmet, hfollows'⟩ := ih hfollows
    exact ⟨d', .cons hstep hmet, hfollows'⟩

/-! ### Having the issue scheduled -/

/-- Unless a retry is owed, an issue is scheduled for the tick at which the next access is due. -/
def Scheduled (v : Flow) : Prop :=
  v.retry = .idle → ∀ i ∈ v.pending.head?, max i.tick v.now ∈ v.issues

theorem Follows.arm (h : v.Follows d) : v.arm.Follows d :=
  h.later v.pending_arm v.retry_arm (v.now_arm ▸ UInt64.le_refl _) fun _ i _ => by
    rw [now_arm, UInt64.le_iff_toNat_le, toNat_max]
    exact Nat.le_max_right ..

/-- With nothing noted as scheduled, or with its issue there already, the next access has it. -/
theorem mem_issues_arm (hretry : v.retry = .idle) {i : Issue} (hi : i ∈ v.pending.head?)
    (h : v.armed = none ∨ max i.tick v.now ∈ v.issues) : max i.tick v.now ∈ v.arm.issues := by
  obtain ⟨rest, hpending⟩ := List.head?_eq_some_iff.1 hi
  rw [arm_of_cons hretry hpending]
  split
  next harmed =>
    refine h.resolve_left fun hnone => ?_
    rw [hnone] at harmed
    contradiction
  next => exact Multiset.mem_cons_self _ _

variable {t : Tick} {rest : Multiset Tick}

/-- The next access is not due before its issue is. -/
theorem Scheduled.le_max (h : v.Scheduled) (hretry : v.retry = .idle) (hcurrent : ∀ u ∈ v.issues, t ≤ u)
    {i : Issue} (hi : i ∈ v.pending.head?) : t ≤ max i.tick v.now :=
  hcurrent _ (h hretry i hi)

/-- When an issue comes due at which something is due, none is noted as scheduled afterwards. -/
theorem Prompt.armed_disarm (h : v.Prompt) (hcurrent : ∀ u ∈ v.issues, t ≤ u) {i : Issue}
    (hi : i ∈ v.pending.head?) (hdue : i.tick ≤ t) : (v.disarm t).armed = none := by
  change (if v.armed = some t then none else v.armed) = none
  split
  next => rfl
  next hother =>
    refine Option.eq_none_iff_forall_ne_some.2 fun u harmed => hother ?_
    obtain ⟨hmem, -, hhead⟩ := h.armed u harmed
    rw [show v.pending.head? = some i from hi] at hhead
    obtain rfl : i.tick = u := Option.some.inj hhead
    rw [harmed, UInt64.le_antisymm hdue (hcurrent _ hmem)]

/-- When an issue comes due, the generator does its duty, and the next access gets its issue. -/
theorem Takes.duty (htakes : ({ v with now := t, issues := rest }.disarm t).Takes log v')
    (hissues : v.issues = t ::ₘ rest) (hcurrent : ∀ u ∈ rest, t ≤ u) (hlater : v.now ≤ t)
    (hprompt : v.Prompt) (hfollows : v.Follows d) (hscheduled : v.Scheduled) :
    ∃ d', d.Met log d' ∧ v'.arm.Follows d' ∧ v'.arm.Scheduled := by
  have hcurrent' : ∀ u ∈ v.issues, t ≤ u := by
    rw [hissues]
    intro u hu
    rcases Multiset.mem_cons.1 hu with rfl | hu
    · exact UInt64.le_refl _
    · exact hcurrent u hu
  have hstart : ({ v with now := t, issues := rest }.disarm t).Follows d :=
    hfollows.later rfl rfl hlater fun hretry i hi => hscheduled.le_max hretry hcurrent' hi
  obtain ⟨d', hmet, hfollows'⟩ := htakes.follows hstart
  refine ⟨d', hmet, hfollows'.arm, fun hretry i hi => ?_⟩
  rw [retry_arm] at hretry
  rw [pending_arm] at hi
  rw [now_arm]
  refine mem_issues_arm hretry hi ?_
  by_cases hearly : ∀ j ∈ v.pending.head?, t < j.tick
  · -- Nothing is due: the next access keeps its issue, which comes later.
    obtain ⟨-, rfl⟩ := htakes.eq_of_done (.inr hearly)
    right
    change max i.tick t ∈ rest
    have hlate : t < i.tick := hearly i hi
    have hmem := hscheduled hretry i hi
    rw [max_eq_of_le (UInt64.le_trans hlater (UInt64.le_of_lt hlate)), hissues] at hmem
    rw [max_eq_of_le (UInt64.le_of_lt hlate)]
    exact (Multiset.mem_cons.1 hmem).resolve_left (UInt64.ne_of_lt hlate).symm
  · left
    simp only [not_forall, UInt64.not_lt] at hearly
    obtain ⟨j, hj, hdue⟩ := hearly
    have hnone := hprompt.armed_disarm hcurrent' hj hdue
    exact htakes.issuesDue.armed_eq.trans hnone

/-- When nothing is issued, the generator may get its retry, and has its issue at once. -/
theorem Tends.duty (h : v.Tends v') (hnow : v.now ≤ v'.now) (hcurrent : ∀ u ∈ v'.issues, v'.now ≤ u)
    (hfollows : v.Follows d) (hscheduled : v.Scheduled) :
    ∃ d', d.Met (if v'.retry = v.retry then [] else [.notified v'.now]) d' ∧
      v'.Follows d' ∧ v'.Scheduled := by
  obtain ⟨hpending, -, ⟨hretry, hissues⟩ | ⟨hretry, hretry', hissues⟩⟩ := h
  · have hdue : v.retry = .idle → ∀ i ∈ v.pending.head?, v'.now ≤ max i.tick v.now := by
      intro hidle
      rw [hissues] at hcurrent
      exact fun i hi => hscheduled.le_max hidle hcurrent hi
    refine ⟨d, ?_, hfollows.later hpending hretry hnow hdue, fun hidle i hi => ?_⟩
    · rw [if_pos hretry]
      exact .nil d
    · rw [hretry] at hidle
      rw [hpending] at hi
      rw [max_eq_of_not_passed hnow (hdue hidle i hi), hissues]
      exact hscheduled hidle i hi
  · obtain ⟨due, left⟩ := d
    obtain ⟨hleft, howed, -⟩ := hfollows
    obtain ⟨rfl, hhead⟩ := howed hretry
    have hdue : ∀ i ∈ v'.pending.head?, max i.tick v'.now = v'.now := by
      rw [hpending]
      exact fun i hi => max_eq_of_ge (UInt64.le_trans (hhead i hi) hnow)
    refine ⟨⟨some v'.now, left⟩, ?_, ⟨?_, ?_, fun _ => ⟨_, rfl, fun i hi => (hdue i hi).symm⟩⟩, ?_⟩
    · rw [if_neg (by simp [hretry, hretry'])]
      exact .cons .notified (.nil _)
    · rw [hpending]
      exact hleft.imp fun _ _ hback => hback.mono hnow
    · exact fun howed' => nomatch howed'.symm.trans hretry'
    · intro _ i hi
      rw [hdue i hi, hissues]
      exact Multiset.mem_cons_self _ _

/-- In each step the generator does its duty. -/
theorem Tells.duty (h : v.Tells log v') (hnow : v.now ≤ v'.now) (hcurrent : ∀ u ∈ v.issues, v.now ≤ u)
    (hcurrent' : ∀ u ∈ v'.issues, v'.now ≤ u) (hprompt : v.Prompt) (hfollows : v.Follows d)
    (hscheduled : v.Scheduled) : ∃ d', d.Met log d' ∧ v'.Follows d' ∧ v'.Scheduled := by
  cases h with
  | tends h => exact h.duty hnow hcurrent' hfollows hscheduled
  | issued t hissues hrest htakes =>
    have hlater : v.now ≤ t := hcurrent t (hissues ▸ Multiset.mem_cons_self _ _)
    exact htakes.duty hissues hrest hlater hprompt hfollows hscheduled

end Flow

end TimedBridge
