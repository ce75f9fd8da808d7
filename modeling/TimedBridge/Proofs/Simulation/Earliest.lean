import TimedBridge.Proofs.Simulation.Reckoning
import TimedBridge.Proofs.Simulation.Roomy

/-!
A simulation issues each access as early as the ticks and the bridge allow (`exists_issuesEarly`): the first
at its own tick, every other one at the later of its own tick and the one at which the access before it was
done with, and one that was handed back at the tick of the retry. With room in both queues for all accesses
that go through them, nothing is handed back, and accesses that come in the order of their ticks are each
issued at their own.
-/

namespace TimedBridge

namespace Duty

/-- The duty of a generator that has issued nothing yet: the first access is to be taken at its tick. -/
def first (accesses : List Issue) : Duty where
  due := some (accesses.head?.elim 0 Issue.tick)
  left := accesses

theorem first_eq (accesses : List Issue) : first accesses = reached 0 accesses := by
  cases accesses with
  | nil => rfl
  | cons i rest =>
    have hmax : max i.tick 0 = i.tick := max_eq_of_le (UInt64.le_iff_toNat_le.2 (Nat.zero_le _))
    rw [first, reached, List.head?_cons, Option.elim_some, Option.elim_some, hmax]

/-- Accesses that come in the order of their ticks are taken at their own when none is handed back. -/
theorem Met.onTime {d : Duty} {log : List Occasion} {left : List Issue} {due : Tick}
    (h : Met ⟨some due, left⟩ log d) (hordered : left.Pairwise fun i j => i.tick ≤ j.tick)
    (hdue : ∀ i ∈ left.head?, due = i.tick) (haccepted : ∀ id tick, .refused id tick ∉ log) :
    ∃ count, log = (left.take count).map (fun i => .settled i.packet.id i.tick) ∧
      count + d.left.length = left.length := by
  induction left generalizing due log with
  | nil =>
    cases h with
    | nil => exact ⟨0, rfl, Nat.zero_add _⟩
    | cons h => cases h
  | cons i rest ih =>
    obtain ⟨hfirst, hrest⟩ := List.pairwise_cons.1 hordered
    obtain rfl : due = i.tick := hdue i rfl
    cases h with
    | nil => exact ⟨0, rfl, Nat.zero_add _⟩
    | @cons _ d' _ occasion log h hmore =>
      have haccepted' : ∀ id tick, .refused id tick ∉ log :=
        fun id tick hmem => haccepted id tick (.tail _ hmem)
      cases h with
      | settled =>
        have hdue' : ∀ j ∈ rest.head?, rest.head?.elim i.tick (fun j => max j.tick i.tick) = j.tick := by
          intro j hj
          rw [show rest.head? = some j from hj]
          exact max_eq_of_le (hfirst j (List.mem_of_mem_head? hj))
        obtain ⟨count, hlog, hlength⟩ := ih hmore hrest hdue' haccepted'
        refine ⟨count + 1, congrArg (_ :: ·) hlog, ?_⟩
        rw [List.length_cons, ← hlength, Nat.succ_add]
      | refused => exact absurd List.mem_cons_self (haccepted _ _)

/-- So does the generator that has issued nothing yet. -/
theorem Met.onTime_first {accesses : List Issue} {d : Duty} {log : List Occasion}
    (h : (first accesses).Met log d) (hordered : accesses.Pairwise fun i j => i.tick ≤ j.tick)
    (haccepted : ∀ id tick, .refused id tick ∉ log) :
    ∃ count, log = (accesses.take count).map (fun i => .settled i.packet.id i.tick) ∧
      count + d.left.length = accesses.length := by
  refine h.onTime hordered (fun i hi => ?_) haccepted
  rw [show accesses.head? = some i from hi]
  rfl

end Duty

/-- How a generator stands between two steps of a simulation, with the duty `d` before it. -/
structure Generator.Attends (g : Generator) (s : Simulation) (d : Duty) : Prop where
  bound : s.bridge.front.agent = some g
  /-- It has the accesses that are left, of which some may have been handed back. -/
  left : List.Forall₂ (Issue.PutBack s.now) d.left g.pending
  stalled : g.stalled = true ↔ s.bridge.front.retry = .pending
  waits : g.stalled = true → d.due = none
  /-- The next access is to be taken as soon as it may be issued. -/
  due : g.stalled = false → ∀ i ∈ d.left.head?, d.due = some (max i.tick s.now)
  scheduled : g.stalled = false → ∀ i ∈ g.pending.head?, max i.tick s.now ∈ s.agenda.ticks .issue

namespace Simulation

variable {s : Simulation} {g : Generator} {m : Memory} {d : Duty} {sc : Scenario}

/-- Accesses are issued as early as they may. -/
structure IssuesEarly (s : Simulation) (sc : Scenario) : Prop where
  /-- What the generator has gone through is its duty, and it has the rest of it before it. -/
  met : ∀ n, ∃ d, (Duty.first (numberedIssues 1 sc.traffic)).Met (s.occasionsIn n) d ∧
    ∃ g : Generator, g.Attends (s.after n) d
  /-- When a run returns, it has done all of it. -/
  done : ∀ n report, s.run? n = some (.ok report) →
    ∃ due, (Duty.first (numberedIssues 1 sc.traffic)).Met (s.occasionsIn n) ⟨due, []⟩

/-- No access is handed back. -/
structure Unhindered (s : Simulation) (sc : Scenario) : Prop where
  accepted : ∀ n id tick, .refused id tick ∉ s.occasionsIn n
  refused : ∀ n, (s.after n).report.refused = 0
  reported : ∀ n report, s.run? n = some (.ok report) → report.refused = 0
  /-- Accesses that come in the order of their ticks are each issued at their own. -/
  onTime : (sc.traffic.Pairwise fun item other => item.tick ≤ other.tick) → ∀ n, ∃ count,
    s.occasionsIn n = ((numberedIssues 1 sc.traffic).take count).map
        (fun i => .settled i.packet.id i.tick) ∧
      ∃ g : Generator, (s.after n).bridge.front.agent = some g ∧
        count + g.remaining = sc.traffic.length
  allOnTime : (sc.traffic.Pairwise fun item other => item.tick ≤ other.tick) →
    ∀ n report, s.run? n = some (.ok report) →
      s.occasionsIn n = (numberedIssues 1 sc.traffic).map fun i => .settled i.packet.id i.tick

/-! ### The duty of a generator -/

theorem Running.attends (h : s.Running g m) (hfollows : (s.flow g m).Follows d)
    (hscheduled : (s.flow g m).Scheduled) : g.Attends s d := by
  obtain ⟨hleft, howed, hfree⟩ := hfollows
  have hidle : g.stalled = false → s.bridge.front.retry = .idle := by
    intro hstalled
    cases hretry : s.bridge.front.retry with
    | idle => rfl
    | pending => exact absurd (h.joins.stalled.2 hretry) (by simp [hstalled])
  refine ⟨h.joins.initiator, hleft, h.joins.stalled, fun hstalled => ?_, fun hstalled i hi => ?_,
    fun hstalled i hi => ?_⟩
  · exact (howed (h.joins.stalled.1 hstalled)).1
  · obtain ⟨tick, hdue, hhead⟩ := hfree (hidle hstalled)
    obtain ⟨left, hcons⟩ := List.head?_eq_some_iff.1 hi
    rw [hcons] at hleft
    obtain ⟨j, rest, hback, -, hpending⟩ := List.forall₂_cons_left_iff.1 hleft
    rw [hdue, hhead j (by rw [hpending]; rfl)]
    exact congrArg some hback.max_eq.symm
  · have hmem := hscheduled (hidle hstalled) i hi
    simpa [flow, h.quiet.retryReceived] using hmem

/-- Before the first event, all of its duty is before the generator. -/
theorem follows_first (sc : Scenario) :
    (firstFlow sc).arm.Follows (Duty.first (numberedIssues 1 sc.traffic)) := by
  rw [Duty.first_eq]
  exact (Flow.follows_reached rfl (List.forall₂_same.2 fun _ _ => .inl rfl)).arm

theorem scheduled_first (sc : Scenario) : (firstFlow sc).arm.Scheduled := by
  intro hretry i hi
  rw [Flow.pending_arm] at hi
  rw [Flow.now_arm]
  exact Flow.mem_issues_arm rfl hi (.inl rfl)

theorem Running.issuesEarly (h : s.Running g m) (hflow : s.flow g m = (firstFlow sc).arm) :
    s.IssuesEarly sc := by
  have hduty := h.duty_after (hflow ▸ follows_first sc) (hflow ▸ scheduled_first sc)
  refine ⟨fun n => ?_, fun n report hrun => ?_⟩
  · obtain ⟨g', m', d, hrunning, hmet, hfollows, hscheduled⟩ := hduty n
    exact ⟨d, hmet, g', hrunning.attends hfollows hscheduled⟩
  · obtain ⟨g', m', ⟨due, left⟩, hrunning, hmet, ⟨hleft, -, -⟩, -⟩ := hduty n
    obtain ⟨⟨g₁, hinitiator, hpending⟩, -⟩ := h.drained_of_run? hrun
    obtain rfl := Option.some.inj (hrunning.joins.initiator.symm.trans hinitiator)
    rw [show ((s.after n).flow g' m').pending = [] from hpending, List.forall₂_nil_right_iff] at hleft
    exact ⟨due, hleft ▸ hmet⟩

/-! ### Room for all accesses -/

/-- With as many places as there are accesses that go through the queues, they fit. -/
theorem fits_first (sc : Scenario) :
    (firstFlow sc).arm.Fits (sc.traffic.countP fun item => item.Crosses sc.bridge.ranges) := by
  have hcount : (firstFlow sc).crossing = sc.traffic.countP fun item => item.Crosses sc.bridge.ranges :=
    countP_numberedIssues (fun item id => decide_eq_decide.2 (crosses_issue_iff sc item id)) 1 _
  have hfits : (firstFlow sc).Fits (firstFlow sc).crossing :=
    ⟨Nat.le_of_eq (Nat.zero_add _), Nat.le_of_eq (Nat.zero_add _), nofun⟩
  exact hcount ▸ hfits.arm

theorem length_numberedIssues (number : Nat) (traffic : List TrafficItem) :
    (numberedIssues number traffic).length = traffic.length := by
  simpa using congrArg List.length (modes_numberedIssues number traffic)

theorem Running.unhindered (h : s.Running g m) (hs : ofScenario sc = .ok s)
    (valid : sc.bridge.validate = .ok ()) (hflow : s.flow g m = (firstFlow sc).arm)
    (hrequests : (sc.traffic.countP fun item => item.Crosses sc.bridge.ranges) ≤
      sc.bridge.requestCapacity.toNat)
    (hresponses : (sc.traffic.countP fun item => item.Crosses sc.bridge.ranges) ≤
      sc.bridge.responseCapacity.toNat) : s.Unhindered sc := by
  have hroomy : Roomy (sc.traffic.countP fun item => item.Crosses sc.bridge.ranges) s.bridge := by
    rw [Roomy, (fresh_of_ofScenario hs valid).ledger_eq]
    exact ⟨hrequests, hresponses⟩
  have hidle := h.retry_idle_after (hflow ▸ fits_first sc) hroomy
  have haccepted := h.accepted_of_idle hidle
  obtain ⟨trafficTag, hbooks⟩ := books_of_ofScenario hs valid
  have hrefused (n : Nat) : (s.after n).report.refused = 0 :=
    (h.refused_of_accepted hbooks n (haccepted n)).trans
      (congrArg Report.refused hbooks.report_eq).symm
  obtain ⟨hmets, hdone⟩ := h.issuesEarly hflow
  refine ⟨haccepted, hrefused, fun n report hrun => ?_, fun hordered n => ?_,
    fun hordered n report hrun => ?_⟩
  · obtain ⟨⟨g', hinitiator, -⟩, -, -, -, m', htarget, -⟩ := h.drained_of_run? hrun
    obtain ⟨-, -, rfl⟩ := (conclude_eq_ok_iff hinitiator htarget).1 (h.conclude_of_run? hrun)
    exact hrefused n
  · obtain ⟨d, hmet, g', hattends⟩ := hmets n
    obtain ⟨count, hlog, hlength⟩ :=
      hmet.onTime_first (ordered_numberedIssues 1 hordered) (haccepted n)
    rw [length_numberedIssues, hattends.left.length_eq] at hlength
    exact ⟨count, hlog, g', hattends.bound, hlength⟩
  · obtain ⟨due, hmet⟩ := hdone n report hrun
    obtain ⟨count, hlog, hlength⟩ :=
      hmet.onTime_first (ordered_numberedIssues 1 hordered) (haccepted n)
    have hall : (numberedIssues 1 sc.traffic).length ≤ count := Nat.le_of_eq hlength.symm
    rwa [List.take_of_length_le hall] at hlog

/-! ### Every run -/

/-- A simulation of accepted settings, with no more accesses than there are 64-bit identities, issues its
accesses as early as they may, and hands none of them back when both queues have a place for each access
that goes through them. -/
theorem exists_issuesEarly (valid : sc.bridge.validate = .ok ())
    (hlength : sc.traffic.length ≤ UInt64.size) :
    ∃ s, ofScenario sc = .ok s ∧ s.IssuesEarly sc ∧
      ((sc.traffic.countP fun item => item.Crosses sc.bridge.ranges) ≤ sc.bridge.requestCapacity.toNat →
        (sc.traffic.countP fun item => item.Crosses sc.bridge.ranges) ≤
          sc.bridge.responseCapacity.toNat → s.Unhindered sc) := by
  obtain ⟨s, g, m, hs, hrunning, hflow⟩ := exists_running valid hlength
  exact ⟨s, hs, hrunning.issuesEarly hflow, hrunning.unhindered hs valid hflow⟩

/-- The accesses of `contended` with room for all of them. -/
def spacious : Scenario := { contended with bridge := { requestCapacity := 3, responseCapacity := 3 } }

/-- With one slot each way the write is handed back twice and the writeback once; with three, nothing is. -/
theorem issuesEarly_contended :
    (∃ s, ofScenario contended = .ok s ∧ s.IssuesEarly contended ∧
      s.occasionsIn 14 = [.settled 1 0, .refused 2 0, .notified 1, .refused 2 1, .notified 5,
        .settled 2 5, .refused 3 5, .notified 7, .settled 3 7, .settled 4 7]) ∧
      ∃ s, ofScenario spacious = .ok s ∧ s.IssuesEarly spacious ∧ s.Unhindered spacious := by
  obtain ⟨s, hs, hearly, -⟩ := @exists_issuesEarly contended rfl (by decide)
  obtain ⟨s', hs', hearly', hroom⟩ := @exists_issuesEarly spacious rfl (by decide)
  have hlog : (ofScenario contended).map (·.occasionsIn 14) = .ok [.settled 1 0, .refused 2 0,
      .notified 1, .refused 2 1, .notified 5, .settled 2 5, .refused 3 5, .notified 7, .settled 3 7,
      .settled 4 7] := by
    decide +kernel
  rw [hs] at hlog
  exact ⟨⟨s, hs, hearly, Except.ok.inj hlog⟩, s', hs', hearly', hroom (by decide) (by decide)⟩

end Simulation

end TimedBridge
