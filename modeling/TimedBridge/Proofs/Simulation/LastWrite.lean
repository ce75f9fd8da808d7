import TimedBridge.Proofs.Simulation.Settling

/-!
The last write to an address in a run. A byte that a functional write stores, and no later access, is
there when the run returns, if the write has settled it (`exists_settles`). A timed write that is
already in service is not reached by the functional one, and undoes it unless a request in the bridge
follows (`not_settles_overtaken`).
-/

namespace TimedBridge

namespace Simulation

variable {s : Simulation} {g : Generator} {m : Memory} {ranges : List AddressRange}
  {accesses later : List (TrafficItem × Nat)} {a : Address}

/-! ### The step that issues an access -/

/-- The number of accesses not yet issued. -/
def unissued (s : Simulation) : Nat :=
  match s.generator with
  | .ok g => g.remaining
  | .error _ => 0

theorem unissued_eq (h : s.bridge.front.agent = some g) (m : Memory) :
    s.unissued = (s.bridge.cargo g m).pending.length := by
  rw [unissued, generator_of_bound h]
  exact (List.length_map ..).symm

theorem Drained.unissued_eq (h : s.Drained) : s.unissued = 0 := by
  obtain ⟨⟨g, hinitiator, hpending⟩, -⟩ := h
  rw [unissued, generator_of_bound hinitiator]
  exact congrArg List.length hpending

/-- The step `k` issues the access that `later` accesses follow. -/
def IssuesAt (s : Simulation) (k later : Nat) : Prop :=
  later < (s.after k).unissued ∧ (s.after (k + 1)).unissued ≤ later

/-- An access that is still to be issued now and no longer after some steps is issued in one of them. -/
theorem exists_issuesAt {bound n : Nat} (hstart : bound < s.unissued)
    (hend : (s.after n).unissued ≤ bound) : ∃ k, s.IssuesAt k bound := by
  induction n with
  | zero => exact absurd hend (Nat.not_le_of_lt hstart)
  | succ n ih =>
    by_cases hn : (s.after n).unissued ≤ bound
    · exact ih hn
    · exact ⟨n, Nat.lt_of_not_le hn, hend⟩

/-- An access is issued in a step that is made. -/
theorem IssuesAt.exists_step {k bound : Nat} (h : s.IssuesAt k bound)
    (hrunning : (s.after k).Running g m) :
    ∃ s' g' m', (s.after k).step = (s', .ok true) ∧ s'.Running g' m' ∧ s.after (k + 1) = s' := by
  have hafter : s.after (k + 1) = (s.after k).step.1 := s.after_add k 1
  rcases hrunning.step with ⟨-, hstep⟩ | ⟨s', g', m', hstep, hrunning', -⟩
  · obtain ⟨hbefore, hissued⟩ := h
    rw [hafter, hstep] at hissued
    exact absurd hissued (Nat.not_le_of_lt hbefore)
  · exact ⟨s', g', m', hstep, hrunning', by rw [hafter, hstep]⟩

/-- An access is issued before a run returns. -/
theorem IssuesAt.lt {k bound n : Nat} (h : s.IssuesAt k bound)
    (hpop : (s.after n).agenda.pop? = none) (hdrained : (s.after n).Drained) : k < n := by
  by_contra hle
  obtain ⟨r, rfl⟩ := Nat.exists_eq_add_of_le (Nat.le_of_not_lt hle)
  obtain ⟨hbefore, -⟩ := h
  rw [after_add, after_of_pop_none hpop, hdrained.unissued_eq] at hbefore
  contradiction

/-! ### What is settled -/

theorem underway_firstCargo {sc : Scenario} (hends : ∀ item ∈ sc.traffic, item.EndsBelowTop) :
    (firstCargo sc).Underway sc.bridge.ranges (sc.traffic.zipIdx 1) := by
  refine ⟨rfl, ⟨?_, ?_, ?_⟩, _, List.suffix_rfl, numberedIssues_eq 1 sc.traffic⟩
  · rw [firstCargo, numberedIssues_eq, List.forall_mem_map]
    exact fun e he => TrafficItem.fitting_packet (hends e.1 (List.fst_mem_of_mem_zipIdx he))
  · exact fun p hp => absurd hp List.not_mem_nil
  · exact fun p hp => absurd hp List.not_mem_nil

theorem Running.underway_after (h : s.Running g m) (hrested : g.responses = [])
    (hunderway : (s.bridge.cargo g m).Underway ranges accesses) (n : Nat) :
    ∃ g' m', (s.after n).Running g' m' ∧ g'.responses = [] ∧
      ((s.after n).bridge.cargo g' m').Underway ranges accesses :=
  h.run_induction (P := fun _ v => v.Underway ranges accesses) hrested
    (fun _ _ _ hmoves h => h.moves hmoves)
    (fun _ _ _ h => h.of_returning) n [] hunderway

/-- With nothing left to do, the memory has the bytes that were settled. -/
theorem Running.byteAt_of_settled (h : s.Running g m) (hrested : g.responses = [])
    (hunderway : (s.bridge.cargo g m).Underway ranges later)
    (hlater : ∀ e ∈ later, e.1.covered ranges = true → ¬ e.1.Stores a) {n : Nat}
    (hdrained : (s.after n).Drained) :
    ∃ m', (s.after n).bridge.back.agent = some m' ∧
      m'.byteAt a = (s.bridge.cargo g m).settled a := by
  obtain ⟨g', m', hrunning, hrested', -, hsettled⟩ :=
    h.run_induction
      (P := fun _ v => v.Underway ranges later ∧ v.settled a = (s.bridge.cargo g m).settled a)
      hrested
      (fun _ _ _ hmoves h => ⟨h.1.moves hmoves, (h.1.settled_moves hlater hmoves).trans h.2⟩)
      (fun _ _ _ h => ⟨h.1.of_returning, h.2⟩) n [] ⟨hunderway, rfl⟩
  refine ⟨m', hrunning.joins.target, ?_⟩
  rw [← hsettled, hrunning.cargo_of_drained hdrained hrested']
  rfl

/-- The memory has a request in service that stores at the address, and no request that waits in the
bridge does. -/
def Exposed (s : Simulation) (a : Address) : Prop :=
  ∃ m, s.bridge.back.agent = some m ∧ (∃ p ∈ m.inService, p.storedAt? a ≠ none) ∧
    ∀ q ∈ s.bridge.back.requests.packets, q.storedAt? a = none

/-- The step that issues a functional write settles the bytes that it stores, unless they are exposed
when the step begins. -/
theorem Running.settles {g' : Generator} {m' : Memory} {s' : Simulation} (h : s.Running g m)
    (hunderway : (s.bridge.cargo g m).Underway ranges accesses) (hstep : s.step = (s', .ok true))
    (h' : s'.Running g' m') {w : TrafficItem × Nat} (hsuffix : w :: later <:+ accesses)
    (hmode : w.1.mode = .functional) (hcovered : w.1.covered ranges = true) (hstores : w.1.Stores a)
    (hlater : ∀ e ∈ later, e.1.covered ranges = true → ¬ e.1.Stores a) (hexposed : ¬ s.Exposed a)
    (hbefore : later.length < s.unissued) (hafter : s'.unissued ≤ later.length) :
    (s'.bridge.cargo g' m').Underway ranges later ∧ (s'.bridge.cargo g' m').settled a = w.1.fill := by
  obtain ⟨-, hmoves⟩ := moves_of_step h.joins.initiator h.joins.target hstep h'.joins.initiator
    h'.joins.target
  rw [unissued_eq h.joins.initiator m] at hbefore
  rw [unissued_eq h'.joins.initiator m'] at hafter
  obtain ⟨hunderway', hsettled⟩ := hunderway.settles_moves hsuffix hmode hcovered hstores hlater
    (fun hv => hexposed ⟨m, h.joins.target, hv⟩) hbefore (by exact hafter) hmoves
  exact ⟨hunderway'.of_returning, hsettled⟩

/-- The bytes that a functional write settles are there when the run returns. -/
theorem Running.byteAt_of_issuesAt (h : s.Running g m) (hrested : g.responses = [])
    (hunderway : (s.bridge.cargo g m).Underway ranges accesses) {w : TrafficItem × Nat}
    (hsuffix : w :: later <:+ accesses) (hmode : w.1.mode = .functional)
    (hcovered : w.1.covered ranges = true) (hstores : w.1.Stores a)
    (hlater : ∀ e ∈ later, e.1.covered ranges = true → ¬ e.1.Stores a) {k n : Nat} {report : Report}
    (hissues : s.IssuesAt k later.length) (hexposed : ¬ (s.after k).Exposed a)
    (hrun : s.run? n = some (.ok report)) :
    ∃ m', (s.after n).bridge.back.agent = some m' ∧ m'.byteAt a = w.1.fill := by
  obtain ⟨g₁, m₁, hrunning₁, -, hunderway₁⟩ := h.underway_after hrested hunderway k
  obtain ⟨s', g₂, m₂, hstep, hrunning₂, rfl⟩ := hissues.exists_step hrunning₁
  obtain ⟨hunderway₂, hsettled⟩ := hrunning₁.settles hunderway₁ hstep hrunning₂ hsuffix hmode hcovered
    hstores hlater hexposed hissues.1 hissues.2
  have hrested₂ := (moves_of_step hrunning₁.joins.initiator hrunning₁.joins.target hstep
    hrunning₂.joins.initiator hrunning₂.joins.target).1
  -- The run returns after this step, and the byte stays settled until then.
  have hlast := h.drained_of_run? hrun
  have hlt := hissues.lt (h.pop_of_run? hrun) hlast
  obtain ⟨r, rfl⟩ := Nat.exists_eq_add_of_le (Nat.succ_le_of_lt hlt)
  rw [after_add] at hlast ⊢
  obtain ⟨m', htarget, hbyte⟩ := hrunning₂.byteAt_of_settled hrested₂ hunderway₂ hlater hlast
  exact ⟨m', htarget, hbyte.trans hsettled⟩

/-! ### The last write -/

/-- A byte that a functional write stores is the last one stored there, if no covered access that follows
stores there and no older request is exposed when the step begins that issues the write. -/
theorem exists_settles {sc : Scenario} (valid : sc.bridge.validate = .ok ())
    (hlength : sc.traffic.length ≤ UInt64.size) (hrefuses : sc.memory.refuseEvery ≠ 1)
    (hends : ∀ item ∈ sc.traffic, item.EndsBelowTop) {before later : List TrafficItem}
    {w : TrafficItem} {a : Address} (htraffic : sc.traffic = before ++ w :: later)
    (hmode : w.mode = .functional) (hcovered : w.covered sc.bridge.ranges = true) (hstores : w.Stores a)
    (hlater : ∀ item ∈ later, item.covered sc.bridge.ranges = true → ¬ item.Stores a) :
    ∃ s, ofScenario sc = .ok s ∧ (∃ n report, s.run? n = some (.ok report)) ∧
      (∃ k, s.IssuesAt k later.length) ∧
      ∀ k, s.IssuesAt k later.length → ¬ (s.after k).Exposed a →
        ∀ n report, s.run? n = some (.ok report) →
          ∃ m, (s.after n).bridge.back.agent = some m ∧ m.byteAt a = w.fill := by
  obtain ⟨s, g, m, hs, hrunning, hflow⟩ := exists_running valid hlength
  obtain ⟨hrested, hcargo⟩ :=
    cargo_of_ofScenario hs hrunning.joins.initiator hrunning.joins.target valid
  have hunderway : (s.bridge.cargo g m).Underway sc.bridge.ranges (sc.traffic.zipIdx 1) := by
    rw [hcargo]
    exact underway_firstCargo hends
  have hreturns : ∃ n report, s.run? n = some (.ok report) := by
    refine hrunning.returns ?_
    rw [hflow, ending_first_iff]
    exact .inl hrefuses
  obtain ⟨number, hsuffix⟩ : ∃ number, (w, number) :: later.zipIdx (number + 1) <:+
      sc.traffic.zipIdx 1 := by
    refine ⟨1 + before.length, before.zipIdx 1, ?_⟩
    rw [htraffic, List.zipIdx_append, List.zipIdx_cons]
  refine ⟨s, hs, hreturns, ?_, ?_⟩
  · obtain ⟨n, report, hrun⟩ := hreturns
    have hstart : later.length < s.unissued := by
      rw [unissued_eq hrunning.joins.initiator m, hcargo, firstCargo, numberedIssues_eq, List.length_map,
        List.length_zipIdx, htraffic, List.length_append, List.length_cons]
      omega
    refine exists_issuesAt (n := n) hstart ?_
    rw [(hrunning.drained_of_run? hrun).unissued_eq]
    exact Nat.zero_le later.length
  · intro k hissues hexposed n report hrun
    rw [← List.length_zipIdx (i := number + 1)] at hissues
    refine hrunning.byteAt_of_issuesAt hrested hunderway hsuffix hmode hcovered hstores ?_ hissues
      hexposed hrun
    intro e he
    exact hlater e.1 (List.fst_mem_of_mem_zipIdx he)

/-- A timed write waits in the bridge when a functional write stores over two of its bytes. -/
def overlaid : Scenario where
  traffic := [
    { kind := .write, address := 0x1000, size := 4, fill := 1 },
    { kind := .write, address := 0x1001, size := 2, fill := 2, mode := .functional }]

theorem settles_overlaid :
    ∃ s n report m, ofScenario overlaid = .ok s ∧ s.run? n = some (.ok report) ∧
      (s.after n).bridge.back.agent = some m ∧ m.byteAt 0x1001 = 2 := by
  obtain ⟨s, hs, ⟨n, report, hrun⟩, -, hsettles⟩ :=
    @exists_settles overlaid rfl (by decide) (by decide) (by decide) (overlaid.traffic.take 1) [] _
      0x1001 rfl rfl (by decide) (by decide) (by simp)
  have hunissued : (ofScenario overlaid).map (fun s => ((s.after 0).unissued, (s.after 1).unissued)) =
      .ok (2, 0) := by
    decide +kernel
  have hservice : (ofScenario overlaid).map (fun s => s.bridge.back.agent.map Memory.inService) =
      .ok (some []) := by
    decide +kernel
  rw [hs] at hunissued hservice
  obtain ⟨hbefore, hafter⟩ := Prod.mk.inj (Except.ok.inj hunissued)
  have hexposed : ¬ (s.after 0).Exposed 0x1001 := by
    rintro ⟨m, htarget, ⟨p, hp, -⟩, -⟩
    have hnone : s.bridge.back.agent.map Memory.inService = some [] := Except.ok.inj hservice
    rw [show s.bridge.back.agent = some m from htarget] at hnone
    rw [Option.some.inj hnone] at hp
    contradiction
  have hissues : s.IssuesAt 0 0 := ⟨by rw [hbefore]; decide, by rw [hafter]⟩
  obtain ⟨m, htarget, hbyte⟩ := hsettles 0 hissues hexposed n report hrun
  exact ⟨s, n, report, m, hs, hrun, htarget, hbyte⟩

/-- A timed write is in service when a functional write stores over it. -/
def overtaken : Scenario where
  memory := { latency := 10 }
  traffic := [
    { kind := .write, address := 0x1000, size := 8, fill := 1 },
    { kind := .write, address := 0x1000, size := 8, tick := 5, fill := 2, mode := .functional }]

/-- The memory performs the older write after the functional one. -/
theorem byteAt_overtaken :
    ∃ s n report m, ofScenario overtaken = .ok s ∧ s.run? n = some (.ok report) ∧
      (s.after n).bridge.back.agent = some m ∧ m.byteAt 0x1000 = 1 := by
  obtain ⟨s, g, m, hs, hrunning, hflow⟩ := @exists_running overtaken rfl (by decide)
  obtain ⟨hrested, hcargo⟩ :=
    cargo_of_ofScenario hs hrunning.joins.initiator hrunning.joins.target rfl
  obtain ⟨n, report, hrun⟩ : ∃ n report, s.run? n = some (.ok report) := by
    refine hrunning.returns ?_
    rw [hflow, ending_first_iff]
    exact .inl (by decide)
  obtain ⟨g', m', hrunning', hrested', hunderway⟩ := hrunning.underway_after hrested
    (hcargo ▸ underway_firstCargo (by decide)) 3
  -- The third step issues the functional write while the memory has the older one in service.
  have hunissued : (ofScenario overtaken).map (fun s => ((s.after 2).unissued, (s.after 3).unissued)) =
      .ok (1, 0) := by
    decide +kernel
  have hqueued : (ofScenario overtaken).map (fun s => (s.after 3).bridge.back.requests.entries.length) =
      .ok 0 := by
    decide +kernel
  have hservice : (ofScenario overtaken).map (fun s =>
      (s.after 3).bridge.back.agent.map fun m => m.inService.map (·.storedAt? 0x1000)) =
      .ok (some [some 1]) := by
    decide +kernel
  rw [hs] at hunissued hqueued hservice
  obtain ⟨hbefore, hafter⟩ := Prod.mk.inj (Except.ok.inj hunissued)
  have hnone : (s.after 3).bridge.back.requests.entries = [] :=
    List.length_eq_zero_iff.1 (Except.ok.inj hqueued)
  have hstored : m'.inService.map (·.storedAt? 0x1000) = [some 1] := by
    have hmapped : (s.after 3).bridge.back.agent.map (fun m => m.inService.map (·.storedAt? 0x1000)) =
        some [some 1] := Except.ok.inj hservice
    rw [hrunning'.joins.target] at hmapped
    exact Option.some.inj hmapped
  obtain ⟨p, hp, hbyte⟩ := List.map_eq_singleton_iff.1 hstored
  have hcome : ((s.after 3).bridge.cargo g' m').pending = [] := by
    rw [← List.length_eq_zero_iff, ← unissued_eq hrunning'.joins.initiator]
    exact hafter
  have hsettled : ((s.after 3).bridge.cargo g' m').settled 0x1000 = 1 := by
    rw [Cargo.settled]
    simp only [Bridge.cargo, TransmitQueue.packets, hnone, hp, List.map_nil, List.append_nil]
    rw [Packet.byteAfter, List.foldl_cons, hbyte]
    rfl
  have hlast := hrunning.drained_of_run? hrun
  have hissues : s.IssuesAt 2 0 := ⟨by rw [hbefore]; decide, by rw [hafter]⟩
  have hlt := hissues.lt (hrunning.pop_of_run? hrun) hlast
  obtain ⟨r, rfl⟩ := Nat.exists_eq_add_of_le (Nat.succ_le_of_lt hlt)
  rw [after_add] at hlast
  have hlater : ((s.after 3).bridge.cargo g' m').Underway overtaken.bridge.ranges [] :=
    ⟨hunderway.ranges, hunderway.fits, [], List.suffix_rfl, hcome⟩
  obtain ⟨m'', htarget, hperformed⟩ := hrunning'.byteAt_of_settled hrested' hlater (by simp) hlast
  refine ⟨s, 3 + r, report, m'', hs, hrun, ?_, hperformed.trans hsettled⟩
  rw [after_add]
  exact htarget

/-- A functional write is undone by an older one that is in service. -/
theorem not_settles_overtaken :
    ¬ ∀ sc : Scenario, sc.bridge.validate = .ok () → sc.traffic.length ≤ UInt64.size →
      sc.memory.refuseEvery ≠ 1 → (∀ item ∈ sc.traffic, item.EndsBelowTop) →
      (∀ item ∈ sc.traffic, item.mode ≠ .atomic) →
      ∀ (before later : List TrafficItem) (w : TrafficItem) (a : Address),
        sc.traffic = before ++ w :: later → w.mode = .functional →
        w.covered sc.bridge.ranges = true → w.Stores a →
        (∀ item ∈ later, item.covered sc.bridge.ranges = true → ¬ item.Stores a) →
        ∃ s, ofScenario sc = .ok s ∧ ∀ n report, s.run? n = some (.ok report) →
          ∃ m, (s.after n).bridge.back.agent = some m ∧ m.byteAt a = w.fill := by
  intro hclaim
  obtain ⟨s, n, report, m, hs, hrun, htarget, hbyte⟩ := byteAt_overtaken
  obtain ⟨s', hs', hkept⟩ := hclaim overtaken rfl (by decide) (by decide) (by decide) (by decide)
    (overtaken.traffic.take 1) [] _ 0x1000 rfl rfl (by decide) (by decide) (by simp)
  obtain rfl := Except.ok.inj (hs.symm.trans hs')
  obtain ⟨m', htarget', hbyte'⟩ := hkept n report hrun
  obtain rfl := Option.some.inj (htarget.symm.trans htarget')
  exact absurd (hbyte.symm.trans hbyte') (by decide)

end Simulation

end TimedBridge
