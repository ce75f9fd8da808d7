import Mathlib.Logic.Equiv.Basic
import TimedBridge.Proofs.Simulation.Alike
import TimedBridge.Proofs.Simulation.Reckoning

/-!
What functional accesses do to the report of the others. The same accesses are issued and completed with
and without them, and if each of them comes at the tick of another access, every count and every latency
is the same (`exists_compared`). One that comes at a tick of its own has an issue scheduled ahead of the
other events of later ticks, and can turn their order around (`not_sameTiming_lone`).
-/

namespace TimedBridge

/-- The scenario with its functional accesses left out. -/
def Scenario.withoutFunctional (sc : Scenario) : Scenario :=
  { sc with traffic := sc.traffic.filter (·.mode ≠ .functional) }

/-- The accesses come in the order of their ticks, and each functional one at the tick of another one. -/
structure Scenario.Accompanied (sc : Scenario) : Prop where
  ordered : sc.traffic.Pairwise (·.tick ≤ ·.tick)
  company : ∀ item ∈ sc.traffic, item.mode = .functional →
    ∃ other ∈ sc.traffic, other.mode ≠ .functional ∧ other.tick = item.tick

/-- What the report tells about timed and atomic accesses. -/
def Report.timed (r : Report) : Report := { r with functional := 0, unroutable := 0 }

/-- What the report of a scenario and the one without its functional accesses have in common. -/
structure Report.Compares (sc : Scenario) (report bare : Report) : Prop where
  issued : bare.issued = report.issued
  completed : bare.completed = report.completed
  atomic : bare.atomic = report.atomic
  /-- Where refusals differ, so do the retries that answer them. -/
  refused : report.refused = report.retries ∧ bare.refused = bare.retries
  memoryRefusals : report.issued + report.memoryRefusals < UInt32.size →
    bare.issued + bare.memoryRefusals < UInt32.size → bare.memoryRefusals = report.memoryRefusals
  /-- Nothing but the numbers of functional and of unroutable accesses differs. -/
  timed : sc.Accompanied → bare.timed = report.timed

/-- What is seen of a simulation when functional accesses are left out. -/
def Sight.withoutFunctional (rename : Equiv.Perm RequestId) : Sight where
  rename
  shows mode := mode ≠ .functional
  labelled := true
  counts := false

/-- All of a simulation, but for the numbers of functional and unroutable accesses. -/
def Sight.everything : Sight where
  rename := .refl _
  shows _ := true
  labelled := true
  counts := false

theorem Sight.comparable_withoutFunctional (rename : Equiv.Perm RequestId) :
    (withoutFunctional rename).Comparable everything where
  counts := rfl
  all _ := rfl
  hidden _ hmode := ⟨of_not_not (of_decide_eq_false hmode), rfl⟩

/-! ### Identities -/

/-- Identities that are apart can be renamed into any others that are. -/
theorem exists_perm_map {α : Type} [DecidableEq α] {l l' : List α} (hl : l.Nodup) (hl' : l'.Nodup)
    (hlength : l.length = l'.length) : ∃ σ : Equiv.Perm α, l.map σ = l' := by
  induction l generalizing l' with
  | nil => exact ⟨.refl α, (List.length_eq_zero_iff.1 hlength.symm).symm⟩
  | cons a rest ih =>
    cases l' with
    | nil => cases hlength
    | cons a' rest' =>
      obtain ⟨ha, hrest⟩ := List.nodup_cons.1 hl
      obtain ⟨ha', hrest'⟩ := List.nodup_cons.1 hl'
      obtain ⟨σ, hσ⟩ := ih hrest hrest' (Nat.succ.inj hlength)
      refine ⟨σ.trans (Equiv.swap (σ a) a'), ?_⟩
      rw [List.map_cons, Equiv.trans_apply, Equiv.swap_apply_left]
      refine congrArg (a' :: ·) (Eq.trans (List.map_congr_left fun x hx => ?_) hσ)
      refine Equiv.swap_apply_of_ne_of_ne (fun heq => ha ?_) (fun heq => ha' ?_)
      · exact σ.injective heq ▸ hx
      · rw [← heq, ← hσ]
        exact List.mem_map_of_mem hx

theorem issue_withoutFunctional (rename : Equiv.Perm RequestId) (item : TrafficItem) (id : RequestId) :
    (Sight.withoutFunctional rename).rendering.issue (item.issue id) =
      Sight.everything.rendering.issue (item.issue (rename id)) := by
  rw [Rendering.issue, Rendering.issue, TrafficItem.issue, TrafficItem.issue, TrafficItem.packet,
    TrafficItem.packet]
  cases item.kind <;> rfl

/-- If the identities that are left can be renamed into the first ones, the accesses look alike. -/
theorem issues_withoutFunctional {rename : Equiv.Perm RequestId} {number number' : Nat}
    {traffic : List TrafficItem}
    (hids : ((numberedIssues number traffic).filter (·.mode ≠ .functional)).map
        (fun i => rename i.packet.id) =
      (numberedIssues number' (traffic.filter (·.mode ≠ .functional))).map fun i => i.packet.id) :
    ((numberedIssues number traffic).filter (·.mode ≠ .functional)).map
        (Sight.withoutFunctional rename).rendering.issue =
      (numberedIssues number' (traffic.filter (·.mode ≠ .functional))).map
        Sight.everything.rendering.issue := by
  induction traffic generalizing number number' with
  | nil => rfl
  | cons item rest ih =>
    rw [numberedIssues] at hids ⊢
    by_cases hmode : item.mode = .functional
    · rw [List.filter_cons_of_neg (by simp [TrafficItem.issue, hmode]),
        List.filter_cons_of_neg (by simp [hmode])] at hids ⊢
      exact ih hids
    · rw [List.filter_cons_of_pos (by simp [TrafficItem.issue, hmode]),
        List.filter_cons_of_pos (by simp [hmode]), numberedIssues, List.map_cons, List.map_cons] at hids ⊢
      obtain ⟨hid, hrest⟩ := List.cons.inj hids
      rw [TrafficItem.issue, TrafficItem.issue, item.id_packet, item.id_packet] at hid
      rw [ih hrest, issue_withoutFunctional, hid]

theorem length_filter_numberedIssues (number : Nat) (traffic : List TrafficItem) :
    ((numberedIssues number traffic).filter (·.mode ≠ .functional)).length =
      (traffic.filter (·.mode ≠ .functional)).length := by
  have hmodes := congrArg (fun l => (l.filter fun e => decide (e.1 ≠ AccessMode.functional)).length)
    (modes_numberedIssues number traffic)
  simpa only [List.filter_map, List.length_map, Function.comp_def] using hmodes

/-- The accesses that are left look like those of the scenario that has no others. -/
theorem exists_rename {traffic : List TrafficItem} (hlength : traffic.length ≤ UInt64.size) :
    ∃ rename, ((numberedIssues 1 traffic).filter (·.mode ≠ .functional)).map
        (Sight.withoutFunctional rename).rendering.issue =
      (numberedIssues 1 (traffic.filter (·.mode ≠ .functional))).map Sight.everything.rendering.issue := by
  have hdistinct := (nodup_numberedIssues 1 hlength).sublist
    ((List.filter_sublist (p := fun i : Issue => decide (i.mode ≠ .functional))).map _)
  have hleft : (traffic.filter (·.mode ≠ .functional)).length ≤ UInt64.size :=
    Nat.le_trans (List.length_filter_le ..) hlength
  have hcount := congrArg List.length (ids_numberedIssues 1 (traffic.filter (·.mode ≠ .functional)))
  rw [List.length_map, List.length_map, List.length_range', ← length_filter_numberedIssues 1] at hcount
  obtain ⟨rename, hids⟩ := exists_perm_map hdistinct (nodup_numberedIssues 1 hleft)
    (by rw [List.length_map, List.length_map, hcount])
  rw [List.map_map] at hids
  exact ⟨rename, issues_withoutFunctional hids⟩

namespace Simulation

variable {sc : Scenario} {s : Simulation} {g : Generator} {m : Memory}

/-- Without its functional accesses, and under other identities, one simulation looks like the other. -/
def Resembles (rename : Equiv.Perm RequestId) (s s' : Simulation) : Prop :=
  Alike (.withoutFunctional rename) .everything s s'

/-- Runs of simulations that look alike return reports that differ in functional accesses only. -/
theorem Resembles.run? {rename : Equiv.Perm RequestId} {s' : Simulation}
    (hresembles : s.Resembles rename s') (h : s.Running g m) (haccompanied : (s.flow g m).Accompanied)
    {n : Nat} {report : Report} (hrun : s.run? n = some (.ok report)) :
    ∃ report', s'.run? n = some (.ok report') ∧ report'.timed = report.timed :=
  Alike.run? hresembles (Sight.comparable_withoutFunctional rename) (.inr haccompanied) h hrun

/-! ### The first state -/

/-- The accesses of a scenario keep each other company before anything is scheduled. -/
theorem accompanied_numberedIssues (h : sc.Accompanied) :
    (numberedIssues 1 sc.traffic).Pairwise (fun i j => i.tick ≤ j.tick) ∧
      ∀ i ∈ numberedIssues 1 sc.traffic, i.mode = .functional →
        ∃ j ∈ numberedIssues 1 sc.traffic, j.mode ≠ .functional ∧ j.tick = i.tick := by
  have hmodes := modes_numberedIssues 1 sc.traffic
  refine ⟨ordered_numberedIssues 1 h.ordered, fun i hi hmode => ?_⟩
  have hmem := List.mem_map_of_mem (f := fun i : Issue => (i.mode, i.tick)) hi
  rw [hmodes] at hmem
  obtain ⟨item, hitem, hsame⟩ := List.mem_map.1 hmem
  obtain ⟨hitemMode, hitemTick⟩ := Prod.mk.inj hsame
  obtain ⟨other, hother, hcounts, htick⟩ := h.company item hitem (hitemMode.trans hmode)
  have hmem' := List.mem_map_of_mem (f := fun item : TrafficItem => (item.mode, item.tick)) hother
  rw [← hmodes] at hmem'
  obtain ⟨j, hj, hsame'⟩ := List.mem_map.1 hmem'
  obtain ⟨hjMode, hjTick⟩ := Prod.mk.inj hsame'
  exact ⟨j, hj, hjMode ▸ hcounts, hjTick.trans (htick.trans hitemTick)⟩

/-- With accompanied accesses, a simulation starts like the one without functional accesses. -/
theorem exists_resembles (valid : sc.bridge.validate = .ok ())
    (hlength : sc.traffic.length ≤ UInt64.size) (haccompanied : sc.Accompanied)
    (hs : ofScenario sc = .ok s) (hflow : s.flow g m = (firstFlow sc).arm) :
    ∃ rename s', ofScenario sc.withoutFunctional = .ok s' ∧ s.Resembles rename s' ∧
      (s.flow g m).Accompanied := by
  obtain ⟨b, hb, -⟩ := Bridge.exists_ofConfig (υ := Generator) (δ := Memory) "bridge" valid
  obtain ⟨hordered, hcompany⟩ := accompanied_numberedIssues haccompanied
  obtain ⟨rename, hissues⟩ := exists_rename hlength
  have hcomparable := Sight.comparable_withoutFunctional rename
  have hbridge : (Sight.withoutFunctional rename).portrait.bridge b = Sight.everything.portrait.bridge b := by
    rw [Bridge.ofConfig, valid] at hb
    cases hb
    rfl
  have hhead (now : Tick) := @Flow.due_head (fun mode => mode ≠ .functional) now _
    (hordered.imp fun hle => .inl hle) fun i hi hmode => by
      obtain ⟨j, hj, hcounts, htick⟩ :=
        hcompany i (List.mem_of_mem_head? hi) (of_not_not (of_decide_eq_false hmode))
      exact ⟨j, hj, decide_eq_true hcounts, htick⟩
  obtain ⟨s', hs', hresembles⟩ :=
    @exists_alike _ _ sc sc.withoutFunctional b b s hcomparable hb hb hbridge hissues rfl hhead hs
  have hfirst : (firstFlow sc).Accompanied :=
    ⟨hordered.imp fun hle => .inl hle, fun i hi hmode => .inr (hcompany i hi hmode)⟩
  exact ⟨rename, s', hs', hresembles, hflow ▸ hfirst.arm⟩

/-! ### Both reports -/

/-- What is counted among the accesses that are not functional is counted without the others. -/
theorem countP_withoutFunctional (sc : Scenario) {P : TrafficItem → Bool}
    (hP : ∀ item, P item = true → item.mode ≠ .functional) :
    sc.withoutFunctional.traffic.countP P = sc.traffic.countP P := by
  rw [Scenario.withoutFunctional, List.countP_filter]
  refine List.countP_congr fun item _ => ?_
  simp only [Bool.and_eq_true, decide_eq_true_eq]
  exact and_iff_left_of_imp (hP item)

/-- The memory refuses as many requests if it is sent as many. -/
theorem memoryRefusals_eq {report bare : Report} (h : report.Accounts sc)
    (hbare : bare.Accounts sc.withoutFunctional) (hrefuseEvery : sc.memory.refuseEvery ≠ 1)
    (hissued : bare.issued = report.issued)
    (hcount : report.issued + report.memoryRefusals < UInt32.size)
    (hcount' : bare.issued + bare.memoryRefusals < UInt32.size) :
    bare.memoryRefusals = report.memoryRefusals := by
  by_cases hnone : sc.memory.refuseEvery = 0 ∨ report.issued = 0
  · rw [h.unrefused hnone, hbare.unrefused (hissued ▸ hnone)]
  · obtain ⟨hzero, hissues⟩ := not_or.1 hnone
    have hevery : 2 ≤ sc.memory.refuseEvery.toNat := by
      have hne : sc.memory.refuseEvery.toNat ≠ 0 := fun heq => hzero (UInt32.toNat_inj.1 heq)
      have hne' : sc.memory.refuseEvery.toNat ≠ 1 := fun heq => hrefuseEvery (UInt32.toNat_inj.1 heq)
      omega
    rw [h.refusals hevery (by omega) hcount, hbare.refusals hevery (by omega) hcount', hissued]
    rfl

/-- With accepted settings, a memory that does not refuse everything, and no more accesses than there are
64-bit identities, a scenario and the one without its functional accesses both have reports, which agree
on the accesses that are issued and completed, and on everything but functional accesses if these come at
the ticks of other accesses. -/
theorem exists_compared (valid : sc.bridge.validate = .ok ())
    (hlength : sc.traffic.length ≤ UInt64.size) (hrefuseEvery : sc.memory.refuseEvery ≠ 1) :
    ∃ s s' n n' report bare, ofScenario sc = .ok s ∧ ofScenario sc.withoutFunctional = .ok s' ∧
      s.run? n = some (.ok report) ∧ s'.run? n' = some (.ok bare) ∧ report.Compares sc bare := by
  have hlength' : sc.withoutFunctional.traffic.length ≤ UInt64.size :=
    Nat.le_trans (List.length_filter_le ..) hlength
  obtain ⟨s, g, m, hs, hrunning, hflow⟩ := exists_running valid hlength
  obtain ⟨s', g', m', hs', hrunning', hflow'⟩ :=
    @exists_running sc.withoutFunctional valid hlength'
  obtain ⟨n, report, hrun⟩ := hrunning.returns (hflow ▸ (ending_first_iff sc).2 (.inl hrefuseEvery))
  obtain ⟨n', bare, hrun', htimed⟩ : ∃ n' bare, s'.run? n' = some (.ok bare) ∧
      (sc.Accompanied → bare.timed = report.timed) := by
    by_cases haccompanied : sc.Accompanied
    · obtain ⟨rename, t, ht, hresembles, hcompany⟩ :=
        exists_resembles valid hlength haccompanied hs hflow
      obtain rfl : s' = t := Except.ok.inj (hs'.symm.trans ht)
      obtain ⟨bare, hrun', hsame⟩ := hresembles.run? hrunning hcompany hrun
      exact ⟨n, bare, hrun', fun _ => hsame⟩
    · obtain ⟨n', bare, hrun'⟩ :=
        hrunning'.returns (hflow' ▸ (ending_first_iff sc.withoutFunctional).2 (.inl hrefuseEvery))
      exact ⟨n', bare, hrun', fun h => absurd h haccompanied⟩
  have haccounts := hrunning.accounts_of_run? hs valid hlength hrun
  have hbare := hrunning'.accounts_of_run? hs' valid hlength' hrun'
  have hissued : bare.issued = report.issued := by
    rw [haccounts.issued, hbare.issued]
    exact countP_withoutFunctional sc fun item hitem hmode => by simp [hmode] at hitem
  refine ⟨s, s', n, n', report, bare, hs, hs', hrun, hrun', {
    issued := hissued
    completed := ?_
    atomic := ?_
    refused := ⟨haccounts.refused, hbare.refused⟩
    memoryRefusals := memoryRefusals_eq haccounts hbare hrefuseEvery hissued
    timed := htimed }⟩
  · rw [haccounts.completed, hbare.completed]
    exact countP_withoutFunctional sc fun item hitem hmode => by simp [hmode] at hitem
  · rw [haccounts.atomic, hbare.atomic]
    exact countP_withoutFunctional sc fun item hitem hmode => by simp [hmode] at hitem

/-- A response slot is free again at the tick at which a read wants it; a functional read comes first. -/
def lateRead (tick : Tick) : Scenario where
  bridge := { responseCapacity := 1, responseDelay := 2 }
  memory := { latency := 4 }
  traffic := [
    { kind := .read, address := 0 },
    { kind := .read, address := 8, tick, mode := .functional },
    { kind := .read, address := 16, tick := 7 }]

/-- At the tick of the other read, the functional one makes no difference. -/
theorem compared_lateRead :
    ∃ s s' n n' report bare, ofScenario (lateRead 7) = .ok s ∧
      ofScenario (lateRead 7).withoutFunctional = .ok s' ∧ s.run? n = some (.ok report) ∧
      s'.run? n' = some (.ok bare) ∧ report.Compares (lateRead 7) bare ∧ bare.timed = report.timed := by
  obtain ⟨s, s', n, n', report, bare, hs, hs', hrun, hrun', hcompares⟩ :=
    @exists_compared (lateRead 7) rfl (by decide) (by decide)
  have haccompanied : (lateRead 7).Accompanied := ⟨by decide, by decide⟩
  exact ⟨s, s', n, n', report, bare, hs, hs', hrun, hrun', hcompares, hcompares.timed haccompanied⟩

/-- At a tick of its own, it spares the other read a refusal. -/
theorem not_sameTiming_lone :
    ¬ ∀ sc : Scenario, sc.bridge.validate = .ok () → sc.traffic.length ≤ UInt64.size →
      sc.traffic.Pairwise (·.tick ≤ ·.tick) → sc.memory.refuseEvery ≠ 1 →
      (∀ item ∈ sc.traffic, item.EndsBelowTop) →
      ∀ n n' report bare, sc.simulate? n = some (.ok report) →
        sc.withoutFunctional.simulate? n' = some (.ok bare) →
        bare.issued = report.issued ∧ bare.completed = report.completed ∧
          bare.atomic = report.atomic ∧ bare.refused = report.refused ∧
          bare.retries = report.retries ∧ bare.memoryRefusals = report.memoryRefusals ∧
          bare.totalLatency = report.totalLatency ∧ bare.maxLatency = report.maxLatency ∧
          bare.maxAtomicLatency = report.maxAtomicLatency := by
  intro hclaim
  have hrefused : ((lateRead 6).simulate? 12).map (·.map Report.refused) = some (.ok 0) := by
    decide +kernel
  have hrefused' : ((lateRead 6).withoutFunctional.simulate? 12).map (·.map Report.refused) =
      some (.ok 1) := by
    decide +kernel
  obtain ⟨result, hrun, hresult⟩ := Option.map_eq_some_iff.1 hrefused
  obtain ⟨result', hrun', hresult'⟩ := Option.map_eq_some_iff.1 hrefused'
  cases result with
  | error fault => cases hresult
  | ok report =>
    cases result' with
    | error fault => cases hresult'
    | ok bare =>
      obtain ⟨-, -, -, hsame, -⟩ := hclaim (lateRead 6) rfl (by decide) (by decide) (by decide)
        (by decide) 12 12 report bare hrun hrun'
      have hnone : report.refused = 0 := Except.ok.inj hresult
      have hone : bare.refused = 1 := Except.ok.inj hresult'
      omega

end Simulation

end TimedBridge
