import TimedBridge.Proofs.Simulation.LoneAccess
import TimedBridge.Proofs.Simulation.Tracking

/-!
How long timed accesses take (`exists_latencies`). Below the last tick nothing is capped, so a response
comes back no earlier than both crossings and the memory take after its access was let in; that is also
the least that the longest latency of a report can be. An access that is alone takes that long from the
clock edges that it is put off to, and not longer.
-/

namespace TimedBridge

open Relation (ReflTransGen)

namespace Simulation

variable {s s' : Simulation} {g : Generator} {m : Memory} {v : Transit} {sc : Scenario}

/-! ### Runs -/

/-- The packets that a number of steps let in, each with the tick at which it was. -/
def admittedIn (s : Simulation) : Nat → List (RequestId × Tick)
  | 0 => []
  | n + 1 => s.admitted ++ s.step.1.admittedIn n

theorem admittedIn_add (s : Simulation) (k n : Nat) :
    s.admittedIn (k + n) = s.admittedIn k ++ (s.after k).admittedIn n := by
  induction k generalizing s with
  | zero => rw [Nat.zero_add]; rfl
  | succ k ih => rw [Nat.succ_add, admittedIn, admittedIn, after, ih, List.append_assoc]

theorem admittedIn_succ (s : Simulation) (n : Nat) :
    s.admittedIn (n + 1) = s.admittedIn n ++ (s.after n).admitted := by
  rw [admittedIn_add, admittedIn, admittedIn, List.append_nil]

theorem admitted_of_pop_none (h : s.agenda.pop? = none) : s.admitted = [] := by
  have hstep : s.step = (s, .ok false) := by rw [step, h]
  rw [admitted, hstep, TransmitQueue.packets, TransmitQueue.size, ← List.length_map, List.drop_length]
  rfl

/-- However many steps are made, no access is ahead of its time. -/
theorem Running.transit_after (h : s.Running g m) (htracks : s.Tracks v) (htimely : v.Timely)
    (n : Nat) :
    ∃ v', (s.after n).Tracks v' ∧ v'.Timely ∧ v'.roundTrip = v.roundTrip ∧
      v'.admitted = v.admitted ++ s.admittedIn n ∧
      v'.completed ≤ v.completed + (s.broughtIn n).length ∧ v.now ≤ v'.now := by
  induction n generalizing s g m v with
  | zero =>
    exact ⟨v, htracks, htimely, rfl, (List.append_nil _).symm, Nat.le_refl _, UInt64.le_refl _⟩
  | succ n ih =>
    rw [Simulation.after, admittedIn, broughtIn]
    rcases h.step with ⟨hpop, hstep⟩ | ⟨s', g', m', hstep, hrunning, -⟩
    · have hbrought : s.brought = [] := by rw [brought, hpop]
      rw [admitted_of_pop_none hpop, hbrought, hstep]
      exact ih h htracks htimely
    · obtain ⟨v₁, v₂, hlater, hmoves, harrived, hcounts, htracks₂, hadmitted₂⟩ :=
        h.transit_of_step htracks htimely hstep
      have htimely₂ := (hmoves.timely hlater htimely).counts hcounts
      obtain ⟨v', htracks', htimely', hroundTrip, hadmitted, hcompleted, hlater'⟩ :=
        ih hrunning htracks₂ htimely₂
      obtain ⟨hroundTrip₁, hcompleted₁⟩ := hmoves.rest_eq
      obtain ⟨hroundTrip₂, -⟩ := Transit.rest_of_counts hcounts
      rw [hstep]
      refine ⟨v', htracks', htimely', ?_, ?_, ?_, ?_⟩
      · rw [hroundTrip, hroundTrip₂, hroundTrip₁]
      · rw [hadmitted, hadmitted₂, List.append_assoc]
      · have hcounted := Transit.completed_le_of_counts hcounts
        rw [harrived, List.length_map] at hcounted
        rw [List.length_append]
        dsimp only
        omega
      · rw [htracks₂.now_eq] at hlater'
        exact UInt64.le_trans hlater hlater'

/-- A response that a step brings is not ahead of its time. -/
theorem Running.since_of_brought (h : s.Running g m) (htracks : s.Tracks v) (htimely : v.Timely)
    {p : Packet} (hp : p ∈ s.brought) :
    ∃ t, (p.id, t) ∈ v.admitted ++ s.admitted ∧
      min (t.toNat + v.roundTrip) 0xffffffffffffffff ≤ s.step.1.now.toNat := by
  rcases h.step with ⟨hpop, hstep⟩ | ⟨s', g', m', hstep, hrunning, -⟩
  · rw [brought, hpop] at hp
    cases hp
  · obtain ⟨v₁, v', hlater, hmoves, harrived, hcounts, htracks', hadmitted⟩ :=
      h.transit_of_step htracks htimely hstep
    have hp' : p.id ∈ v₁.arrived := harrived ▸ List.mem_map_of_mem hp
    obtain ⟨t, ht, hle⟩ := (hmoves.timely hlater htimely).arrived p.id hp'
    obtain ⟨-, -, -, hsame⟩ := Transit.rest_of_counts hcounts
    refine ⟨t, ?_, ?_⟩
    · rw [← hadmitted, hsame]
      exact ht
    · rw [hstep, ← hmoves.now_eq, ← hmoves.rest_eq.1]
      exact hle

/-! ### The first accesses in transit -/

/-- What is in transit in a scenario before its first event. -/
def firstTransit (sc : Scenario) : Transit where
  now := 0
  admitted := []
  completed := 0
  maxLatency := 0
  outward := sc.bridge.settings.crossing .request
  homeward := sc.bridge.settings.crossing .response
  latency := sc.bridge.clock.ticks sc.memory.latency
  unissued := (numberedIssues 1 sc.traffic).map fun i => i.packet.id
  requests := []
  serving := []
  completions := []
  responses := []
  arrived := []

theorem timely_firstTransit (hlength : sc.traffic.length ≤ UInt64.size) :
    (firstTransit sc).Timely where
  distinct := nodup_numberedIssues 1 hlength
  requests _ hw := absurd hw List.not_mem_nil
  serving := .nil
  completions _ ht := absurd ht List.not_mem_nil
  responses _ hw := absurd hw List.not_mem_nil
  arrived _ hid := absurd hid List.not_mem_nil
  counted _ hcompleted := absurd hcompleted (Nat.lt_irrefl 0)
  longest := UInt64.le_refl _

theorem tracks_of_ofScenario (hs : ofScenario sc = .ok s) (valid : sc.bridge.validate = .ok ()) :
    s.Tracks (firstTransit sc) := by
  obtain ⟨b, hb, hfresh⟩ := Bridge.exists_ofConfig (υ := Generator) (δ := Memory) "bridge" valid
  obtain ⟨s₀, hfirst, hstart⟩ := exists_first hb
  obtain ⟨trafficTag, hreport⟩ := hfirst.report
  have hsettings := Bridge.settings_of_ofConfig hb
  have htracks : s₀.Tracks (firstTransit sc) := by
    refine ⟨[], by rw [hfirst.issuedAt]; exact List.nil_subset _, ?_⟩
    rw [hfirst.bridge, firstBridge_eq hfresh, Agenda.times, hfirst.pending]
    refine ⟨_, _, rfl, rfl, ?_⟩
    rw [firstTransit, ← hsettings]
    rw [Simulation.notes, hfirst.now, hreport]
    rfl
  have harmed := tracks_armIssue htracks
  rw [hstart] at hs
  split at hs
  next => cases hs
  next harm =>
    cases hs
    rwa [harm] at harmed

end Simulation

/-! ### Exact times -/

/-- The time that both crossings and the memory take, however long. -/
def Scenario.roundTrip (sc : Scenario) : Nat :=
  (sc.bridge.requestDelay.toNat + sc.memory.latency.toNat + sc.bridge.responseDelay.toNat) *
    sc.bridge.clockPeriod.toNat

/-- The tick at which the response comes back to an access that is let in and meets no other, however
late. -/
def Scenario.exactBackAt (sc : Scenario) (admitted : Nat) : Nat :=
  sc.bridge.clock.exactEdgeAfter
    (sc.bridge.clock.exactEdgeAfter admitted sc.bridge.requestDelay.toNat +
      sc.memory.latency.toNat * sc.bridge.clockPeriod.toNat)
    sc.bridge.responseDelay.toNat

namespace Scenario

variable {sc : Scenario}

/-- What is below the last tick has not been capped. -/
theorem add_roundTrip_le (valid : sc.bridge.validate = .ok ()) {t : Nat} {tick : Tick}
    (hlast : tick.toNat < 0xffffffffffffffff)
    (h : min (t + (Simulation.firstTransit sc).roundTrip) 0xffffffffffffffff ≤ tick.toNat) :
    t + sc.roundTrip ≤ tick.toNat := by
  have hperiod := congrArg UInt64.toNat (BridgeConfig.period_clock valid)
  simp only [Transit.roundTrip, Simulation.firstTransit, BridgeConfig.settings, Crossing.delayTicks,
    Clock.ticks, toNat_cappedMul, BridgeConfig.delay, hperiod] at h
  rw [roundTrip, Nat.add_mul, Nat.add_mul]
  omega

/-- Below the last tick, the tick at which a response comes back is exact. -/
theorem toNat_backAt (valid : sc.bridge.validate = .ok ()) {admitted : Tick}
    (hlast : (sc.backAt admitted).toNat < 0xffffffffffffffff) :
    (sc.backAt admitted).toNat = sc.exactBackAt admitted.toNat := by
  let crossed := sc.bridge.clock.edgeAfter admitted sc.bridge.requestDelay
  let served := cappedAdd crossed (sc.bridge.clock.ticks sc.memory.latency)
  change (sc.bridge.clock.edgeAfter served sc.bridge.responseDelay).toNat < _ at hlast
  change (sc.bridge.clock.edgeAfter served sc.bridge.responseDelay).toNat = _
  have hbelow : served.toNat < 0xffffffffffffffff :=
    Nat.lt_of_le_of_lt (UInt64.le_iff_toNat_le.1 (Clock.le_edgeAfter ..)) hlast
  have hserved : served.toNat =
      crossed.toNat + sc.memory.latency.toNat * sc.bridge.clockPeriod.toNat := by
    rw [← BridgeConfig.period_clock valid]
    simp only [served, Clock.ticks, toNat_cappedAdd, toNat_cappedMul] at hbelow ⊢
    omega
  have hcrossed : crossed.toNat =
      sc.bridge.clock.exactEdgeAfter admitted.toNat sc.bridge.requestDelay.toNat :=
    Clock.toNat_edgeAfter_of_lt _ _ _ (by change crossed.toNat < _; omega)
  rw [Clock.toNat_edgeAfter_of_lt _ _ _ hlast, hserved, hcrossed, exactBackAt]

end Scenario

namespace Simulation

variable {s : Simulation} {g : Generator} {m : Memory} {sc : Scenario} {n : Nat} {report : Report}

/-- What a run of `n` events tells about how long timed accesses take. -/
structure Latencies (s : Simulation) (sc : Scenario) (n : Nat) (report : Report) : Prop where
  /-- An access is let in once. -/
  distinct : ((s.admittedIn n).map Prod.fst).Nodup
  /-- Its response comes back no earlier than its way takes. -/
  delivered : ∀ k < n, ∀ p ∈ (s.after k).brought, ∃ t, (p.id, t) ∈ s.admittedIn n ∧
    t.toNat + sc.roundTrip ≤ (s.after (k + 1)).now.toNat
  /-- Nothing else is counted. -/
  counted : report.completed ≤ (s.broughtIn n).length
  longest : 0 < report.completed → sc.roundTrip ≤ report.maxLatency.toNat
  /-- An access that is alone is not held up. -/
  alone : ∀ item, sc.traffic = [item] → item.mode = .timing → item.kind ≠ .writeback →
    item.covered sc.bridge.ranges = true → sc.memory.refuseEvery ≠ 1 →
      report.totalLatency = report.maxLatency ∧
        report.maxLatency.toNat = sc.exactBackAt item.tick.toNat - item.tick.toNat

/-- Time does not go back. -/
theorem Running.now_le_after (h : s.Running g m) (htracks : s.Tracks v) (htimely : v.Timely)
    (n : Nat) : s.now ≤ (s.after n).now := by
  obtain ⟨v', htracks', -, -, -, -, hle⟩ := h.transit_after htracks htimely n
  rwa [htracks.now_eq, htracks'.now_eq] at hle

/-- Before the last tick, a response that is brought is not ahead of its time. -/
theorem Running.delivered (h : s.Running g m) (hs : ofScenario sc = .ok s)
    (valid : sc.bridge.validate = .ok ()) (hlength : sc.traffic.length ≤ UInt64.size)
    (hlast : (s.after n).now.toNat < 0xffffffffffffffff) {k : Nat} (hk : k < n) {p : Packet}
    (hp : p ∈ (s.after k).brought) :
    ∃ t, (p.id, t) ∈ s.admittedIn n ∧ t.toNat + sc.roundTrip ≤ (s.after (k + 1)).now.toNat := by
  have htracks := tracks_of_ofScenario hs valid
  have htimely := timely_firstTransit hlength
  obtain ⟨g₁, m₁, hrunning₁⟩ := h.after k
  obtain ⟨v₁, htracks₁, htimely₁, hroundTrip₁, hadmitted₁, -⟩ := h.transit_after htracks htimely k
  obtain ⟨t, ht, hsince⟩ := hrunning₁.since_of_brought htracks₁ htimely₁ hp
  obtain ⟨g₂, m₂, hrunning₂⟩ := h.after (k + 1)
  obtain ⟨v₂, htracks₂, htimely₂, -⟩ := h.transit_after htracks htimely (k + 1)
  obtain ⟨rest, rfl⟩ := Nat.exists_eq_add_of_le (Nat.succ_le_of_lt hk)
  have hnow := UInt64.le_iff_toNat_le.1 (hrunning₂.now_le_after htracks₂ htimely₂ rest)
  rw [← after_add] at hnow
  refine ⟨t, ?_, ?_⟩
  · rw [admittedIn_add, admittedIn_succ]
    rw [hadmitted₁] at ht
    exact List.mem_append_left _ ht
  · rw [hroundTrip₁] at hsince
    have hafter : s.after (k + 1) = (s.after k).step.1 := s.after_add k 1
    rw [hafter] at hnow ⊢
    exact sc.add_roundTrip_le valid (Nat.lt_of_le_of_lt hnow hlast) hsince

/-- Before the last tick, a single timed access takes as long as the crossings and the memory. -/
theorem Running.alone_of_run? (h : s.Running g m) (hs : ofScenario sc = .ok s)
    (valid : sc.bridge.validate = .ok ()) (hrun : s.run? n = some (.ok report))
    (hlast : report.finalTick.toNat < 0xffffffffffffffff) (item : TrafficItem)
    (htraffic : sc.traffic = [item]) (hmode : item.mode = .timing) (hkind : item.kind ≠ .writeback)
    (hcovered : item.covered sc.bridge.ranges = true) (hrefuseEvery : sc.memory.refuseEvery ≠ 1) :
    report.totalLatency = report.maxLatency ∧
      report.maxLatency.toNat = sc.exactBackAt item.tick.toNat - item.tick.toNat := by
  obtain ⟨s', bridge, before, hs', htotal, hmax, halone⟩ :=
    exists_alone_after valid htraffic hmode hkind hcovered hrefuseEvery
  cases hs.symm.trans hs'
  have hafter := after_eq_of_pop_none halone.pop_none (h.pop_of_run? hrun)
  obtain ⟨g', m', hrunning⟩ := h.after n
  obtain ⟨-, -, rfl⟩ :=
    (conclude_eq_ok_iff hrunning.joins.initiator hrunning.joins.target).1 (h.conclude_of_run? hrun)
  dsimp only at hlast ⊢
  rw [hafter, halone.now] at hlast
  rw [hafter, halone.report]
  have hlatency := toNat_flooredSub (sc.backAt item.tick) item.tick
  rw [Scenario.toNat_backAt valid hlast] at hlatency
  have hlongest : (before.completing (flooredSub (sc.backAt item.tick) item.tick)).maxLatency.toNat =
      (flooredSub (sc.backAt item.tick) item.tick).toNat := by
    rw [Report.completing, hmax, toNat_max]
    exact Nat.max_eq_right (Nat.zero_le _)
  refine ⟨UInt64.toNat_inj.1 ?_, hlongest.trans hlatency⟩
  rw [hlongest, Report.completing, htotal, toNat_cappedAdd]
  have hbound := (flooredSub (sc.backAt item.tick) item.tick).toNat_lt
  change min (0 + _) _ = _
  omega

/-- With accepted settings, what ends before the last tick has taken no less than its way does, and an
access that is alone has taken no more. -/
theorem exists_latencies (valid : sc.bridge.validate = .ok ())
    (hlength : sc.traffic.length ≤ UInt64.size) :
    ∃ s, ofScenario sc = .ok s ∧ ∀ n report, s.run? n = some (.ok report) →
      report.finalTick.toNat < 0xffffffffffffffff → s.Latencies sc n report := by
  obtain ⟨s, g, m, hs, hrunning, -⟩ := exists_running valid hlength
  refine ⟨s, hs, fun n report hrun hlast => ?_⟩
  have htracks := tracks_of_ofScenario hs valid
  have htimely := timely_firstTransit hlength
  obtain ⟨v, htracks', htimely', hroundTrip, hadmitted, hcompleted, -⟩ :=
    hrunning.transit_after htracks htimely n
  have halone := hrunning.alone_of_run? hs valid hrun hlast
  obtain ⟨g', m', hrunning'⟩ := hrunning.after n
  obtain ⟨-, -, rfl⟩ := (conclude_eq_ok_iff hrunning'.joins.initiator hrunning'.joins.target).1
    (hrunning.conclude_of_run? hrun)
  obtain ⟨hcompleted', hmax⟩ := htracks'.report_eq
  have hcounted := htimely'.counted
  have hlongest := htimely'.longest
  rw [htracks'.now_eq, hcompleted', hmax, hroundTrip] at hcounted
  rw [htracks'.now_eq, hmax] at hlongest
  refine {
    distinct := ?_
    delivered := fun k hk p hp => hrunning.delivered hs valid hlength hlast hk hp
    counted := ?_
    longest := fun hpos => ?_
    alone := halone }
  · have hdistinct := (List.nodup_append.1 htimely'.distinct).1
    rwa [hadmitted] at hdistinct
  · rw [hcompleted'] at hcompleted
    exact Nat.le_trans hcompleted (Nat.le_of_eq (Nat.zero_add _))
  · have hbelow := Nat.lt_of_le_of_lt (UInt64.le_iff_toNat_le.1 hlongest) hlast
    have hle := Nat.le_trans (Nat.min_le_left _ 0xffffffffffffffff) (hcounted hlast hpos)
    have hexact := sc.add_roundTrip_le valid (t := 0) hbelow (by rwa [Nat.zero_add])
    rwa [Nat.zero_add] at hexact

/-- A read that may be issued between two edges of the clock. -/
def betweenEdges : Scenario where
  bridge := { requestDelay := 1, responseDelay := 2, clockPeriod := 10 }
  memory := { latency := 3, refuseEvery := 2 }
  traffic := [{ kind := .read, address := 8, tick := 7 }]

/-- It waits for the next edge before it takes as long as the crossings and the memory. -/
theorem latencies_betweenEdges :
    ∃ s report, ofScenario betweenEdges = .ok s ∧ s.run? 5 = some (.ok report) ∧
      s.Latencies betweenEdges 5 report ∧ betweenEdges.roundTrip = 60 ∧ report.completed = 1 ∧
        report.maxLatency.toNat = (10 - 7) + 60 := by
  obtain ⟨s, hs, hlatencies⟩ := @exists_latencies betweenEdges rfl (by decide)
  have hends : (ofScenario betweenEdges).map (fun s =>
      (s.run? 5).map fun result => result.map fun r => (r.completed, r.finalTick)) =
        .ok (some (.ok (1, 70))) := by
    decide +kernel
  rw [hs] at hends
  obtain ⟨result, hrun, hended⟩ := Option.map_eq_some_iff.1 (Except.ok.inj hends)
  cases result with
  | error fault => contradiction
  | ok report =>
    obtain ⟨hcompleted, hfinal⟩ := Prod.mk.inj (Except.ok.inj hended)
    have hreport := hlatencies 5 report hrun (by rw [hfinal]; decide)
    obtain ⟨-, hmax⟩ := hreport.alone _ rfl rfl (by decide) (by decide) (by decide)
    exact ⟨s, report, hs, hrun, hreport, by decide, hcompleted, hmax.trans (by decide)⟩

end Simulation

end TimedBridge
