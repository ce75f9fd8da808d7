import TimedBridge.Proofs.Simulation.Accesses
import TimedBridge.Proofs.Simulation.Bookkeeping

/-!
A report accounts for every access of its scenario (`exists_accounted`). Before the first event the
account has every access to come, and when a run returns, none: nothing is queued, no response is on its
way and no retry is owed. What the moves have kept adding up is then all in the report.
-/

namespace TimedBridge

/-! ### The accesses of a scenario -/

theorem TrafficItem.expectsResponse_packet (item : TrafficItem) (id : RequestId) :
    (item.packet id).expectsResponse = decide (item.kind ≠ .writeback) := by
  rw [packet]
  cases item.kind <;> rfl

/-- Every access is in one bin. -/
theorem countP_bins {α : Type} (bin : α → Bin) (l : List α) :
    l.countP (bin · = .timed) + l.countP (bin · = .atomic) + l.countP (bin · = .functional) +
      l.countP (bin · = .unroutable) = l.length := by
  induction l with
  | nil => rfl
  | cons a rest ih =>
    rw [List.length_cons, ← ih]
    cases hbin : bin a <;> simp [hbin] <;> omega

/-- A report counts each access of a scenario once, each refusal with its retry, and the requests that
the memory has refused. -/
structure Report.Accounts (report : Report) (sc : Scenario) : Prop where
  issued : report.issued =
    sc.traffic.countP fun item => item.covered sc.bridge.ranges && item.mode = .timing
  completed : report.completed = sc.traffic.countP fun item =>
    item.covered sc.bridge.ranges && item.mode = .timing && item.kind ≠ .writeback
  atomic : report.atomic =
    sc.traffic.countP fun item => item.covered sc.bridge.ranges && item.mode = .atomic
  functional : report.functional =
    sc.traffic.countP fun item => item.covered sc.bridge.ranges && item.mode = .functional
  unroutable : report.unroutable = sc.traffic.countP fun item => !item.covered sc.bridge.ranges
  total : report.issued + report.atomic + report.functional + report.unroutable = sc.traffic.length
  refused : report.refused = report.retries
  latency : report.totalLatency.toNat ≤ report.completed * report.maxLatency.toNat
  unrefused : sc.memory.refuseEvery = 0 ∨ report.issued = 0 → report.memoryRefusals = 0
  /-- The memory takes one request less than its period between two refusals. -/
  refusals : 2 ≤ sc.memory.refuseEvery.toNat → 1 ≤ report.issued →
    report.issued + report.memoryRefusals < UInt32.size →
    report.memoryRefusals = (report.issued - 1) / (sc.memory.refuseEvery.toNat - 1)

namespace Simulation

variable {sc : Scenario} {s : Simulation} {g : Generator} {m : Memory}

/-! ### The first account -/

/-- The accesses of a scenario as they stand in the account. -/
def firstEntries (ranges : List AddressRange) (number : Nat) (traffic : List TrafficItem) :
    List (Bin × Ticket) :=
  (numberedIssues number traffic).map fun i =>
    (Bin.of (ranges.any (·.covers i.packet.footprint)) i.mode, i.packet.ticket)

/-- What is counted among the entries is counted among the accesses. -/
theorem countP_firstEntries (ranges : List AddressRange) {P : Bin × Ticket → Bool}
    {Q : TrafficItem → Bool}
    (hPQ : ∀ item id,
      P (Bin.of (item.covered ranges) item.mode, ⟨id, decide (item.kind ≠ .writeback)⟩) = Q item)
    (number : Nat) (traffic : List TrafficItem) :
    (firstEntries ranges number traffic).countP P = traffic.countP Q := by
  rw [firstEntries, List.countP_map]
  refine countP_numberedIssues (fun item id => ?_) number traffic
  rw [← hPQ item id, Function.comp, TrafficItem.issue, item.footprint_packet, Packet.ticket,
    item.id_packet, item.expectsResponse_packet]
  rfl

/-- The account of a scenario before its first event. -/
def firstAccount (sc : Scenario) (trafficTag : UInt32) : Account where
  ranges := sc.bridge.ranges
  refuseEvery := sc.memory.refuseEvery
  pending := firstEntries sc.bridge.ranges 1 sc.traffic
  queued := 0
  waiting := []
  returning := []
  expected := []
  retry := .idle
  retries := 0
  offered := 0
  refusals := 0
  report := { trafficTag }

theorem books_of_ofScenario (hs : ofScenario sc = .ok s) (valid : sc.bridge.validate = .ok ()) :
    ∃ trafficTag, s.Books (firstAccount sc trafficTag) := by
  obtain ⟨b, hb, hfresh⟩ := Bridge.exists_ofConfig (υ := Generator) (δ := Memory) "bridge" valid
  obtain ⟨s₀, hfirst, hstart⟩ := exists_first hb
  obtain ⟨trafficTag, hreport⟩ := hfirst.report
  have harmed := s₀.bridge_armIssue_eq
  rw [hstart] at hs
  split at hs
  next => cases hs
  next harm =>
    cases hs
    rw [harm] at harmed
    dsimp only at harmed
    have hjoins := hfirst.joins hfresh (ranges_ofConfig hb)
    refine ⟨trafficTag, firstGenerator sc, firstMemory sc, ?_, ?_, ?_⟩
    · rw [harmed]
      exact hjoins.initiator
    · rw [harmed]
      exact hjoins.target
    have hrequests : b.back.requests.size = 0 := by
      rw [hfresh.requests]
      rfl
    have hresponses : b.front.responses.packets = [] := hfresh.packets_eq .response
    rw [harmed]
    dsimp only
    rw [hfirst.bridge, hfirst.issuedAt, hreport]
    change { firstAccount sc trafficTag with
      ranges := b.front.ranges
      pending := firstEntries b.front.ranges 1 sc.traffic
      queued := b.back.requests.size
      waiting := b.table.entries.map Prod.fst
      returning := b.front.responses.packets.map Packet.id
      retry := b.front.retry } = firstAccount sc trafficTag
    rw [ranges_ofConfig hb, hrequests, hresponses, hfresh.table, hfresh.retry]
    rfl

/-- Before the first event everything adds up. -/
theorem reckoned_firstAccount (hlength : sc.traffic.length ≤ UInt64.size) (trafficTag : UInt32) :
    (firstAccount sc trafficTag).Reckoned (firstEntries sc.bridge.ranges 1 sc.traffic) := by
  have hdistinct : ((firstEntries sc.bridge.ranges 1 sc.traffic).map fun e => e.2.id).Nodup := by
    rw [firstEntries, List.map_map]
    exact nodup_numberedIssues 1 hlength
  refine ⟨⟨fun bin => ?_, Nat.zero_add _⟩, ⟨hdistinct, .refl _⟩, rfl, Nat.zero_le _, 0, ?_⟩
  · cases bin <;> exact Nat.zero_add _
  · exact ⟨rfl, rfl, rfl, fun h => absurd h (by decide), fun h => absurd h (by decide)⟩

/-! ### The last account -/

/-- When a run returns, nothing is left to count, and the report is that of the account. -/
theorem Running.account_of_run? (h : s.Running g m) (hrested : g.responses = []) {n : Nat}
    {report : Report} (hrun : s.run? n = some (.ok report)) {v : Account}
    (hbooks : (s.after n).Books v) :
    v.pending = [] ∧ v.queued = 0 ∧ v.waiting ++ v.returning = [] ∧ v.retry = .idle ∧
      report = { v.report with
        retries := v.retries
        memoryRefusals := v.refusals
        finalTick := (s.after n).now } := by
  obtain ⟨g', m', hrunning, hrested', -⟩ := h.run_induction (P := fun _ _ => True) hrested
    (fun _ _ _ _ _ => trivial) (fun _ _ _ _ => trivial) n [] trivial
  have hdrained := h.drained_of_run? hrun
  have hconclude := h.conclude_of_run? hrun
  obtain ⟨⟨g₁, hinitiator, hpending⟩, houtstanding, hqueues, htable, m₁, htarget, -⟩ := hdrained
  obtain rfl := Option.some.inj (hrunning.joins.initiator.symm.trans hinitiator)
  obtain rfl := Option.some.inj (hrunning.joins.target.symm.trans htarget)
  obtain ⟨g₂, m₂, hinitiator₂, htarget₂, rfl⟩ := hbooks
  obtain rfl := Option.some.inj (hinitiator.symm.trans hinitiator₂)
  obtain rfl := Option.some.inj (htarget.symm.trans htarget₂)
  have hrequests : (s.after n).bridge.back.requests.size = 0 := congrArg List.length (hqueues .request)
  have hresponses : (s.after n).bridge.front.responses.entries = [] := hqueues .response
  have hretry : (s.after n).bridge.front.retry = .idle :=
    hrunning.driven.sound.idle hrequests houtstanding
  refine ⟨?_, hrequests, ?_, hretry, ?_⟩
  · simp [Bridge.account, hpending]
  · simp [Bridge.account, htable, hrested', TransmitQueue.packets, hresponses]
  · obtain ⟨-, -, rfl⟩ := (conclude_eq_ok_iff hinitiator htarget).1 hconclude
    rfl

/-- A report accounts for everything when nothing is left to count. -/
theorem accounts_of_reckoned {v : Account}
    (h : v.Reckoned (firstEntries sc.bridge.ranges 1 sc.traffic))
    (hrefuseEvery : v.refuseEvery = sc.memory.refuseEvery) (hpending : v.pending = [])
    (hqueued : v.queued = 0) (hreturning : v.waiting ++ v.returning = []) (hretry : v.retry = .idle)
    (finalTick : Tick) :
    { v.report with retries := v.retries, memoryRefusals := v.refusals, finalTick }.Accounts sc := by
  obtain ⟨htallied, hpaired, hrefused, hlatency, n, hoffered⟩ := h
  have htally (bin : Bin) : v.report.tally bin =
      sc.traffic.countP fun item => Bin.of (item.covered sc.bridge.ranges) item.mode = bin := by
    rw [← countP_firstEntries sc.bridge.ranges (P := (·.1 = bin)) (fun _ _ => rfl) 1,
      ← htallied.tally bin, hpending]
    rfl
  have hmade (mode : AccessMode) : v.report.tally (.of true mode) =
      sc.traffic.countP fun item => item.covered sc.bridge.ranges && item.mode = mode := by
    rw [htally]
    exact List.countP_congr fun item _ => by rw [Bin.of_eq]
  have htotal := countP_bins (fun item : TrafficItem =>
    Bin.of (item.covered sc.bridge.ranges) item.mode) sc.traffic
  rw [← htally, ← htally, ← htally, ← htally] at htotal
  have hexpected : v.expected = [] := by
    rw [← List.perm_nil, ← hreturning]
    exact hpaired.known
  have hcompleted : v.report.completed =
      (firstEntries sc.bridge.ranges 1 sc.traffic).countP Account.completes := by
    rw [← htallied.completed, hpending, hexpected]
    rfl
  rw [hretry] at hrefused
  refine {
    issued := hmade .timing
    completed := ?_
    atomic := hmade .atomic
    functional := hmade .functional
    unroutable := ?_
    total := htotal
    refused := hrefused
    latency := hlatency
    unrefused := fun hnone => hoffered.refusals_eq_zero (hrefuseEvery ▸ hnone)
    refusals := ?_ }
  · refine hcompleted.trans (countP_firstEntries sc.bridge.ranges (fun item id => ?_) 1 sc.traffic)
    exact congrArg (· && _) (Bin.of_eq _ _ .timing)
  · refine (htally .unroutable).trans (List.countP_congr fun item _ => ?_)
    rw [Bin.of_eq_unroutable]
  · rw [← hrefuseEvery]
    exact hoffered.refusals_eq_div hqueued

theorem Running.accounts_of_run? (h : s.Running g m) (hs : ofScenario sc = .ok s)
    (valid : sc.bridge.validate = .ok ()) (hlength : sc.traffic.length ≤ UInt64.size) {n : Nat}
    {report : Report} (hrun : s.run? n = some (.ok report)) : report.Accounts sc := by
  obtain ⟨hrested, -⟩ := cargo_of_ofScenario hs h.joins.initiator h.joins.target valid
  obtain ⟨trafficTag, hbooks⟩ := books_of_ofScenario hs valid
  obtain ⟨v, hbooks', hmoves⟩ := h.leads_after hbooks n
  obtain ⟨hreckoned, hrefuseEvery⟩ := (reckoned_firstAccount hlength trafficTag).after hmoves
  obtain ⟨hpending, hqueued, hreturning, hretry, rfl⟩ := h.account_of_run? hrested hrun hbooks'
  exact accounts_of_reckoned hreckoned hrefuseEvery hpending hqueued hreturning hretry _

/-- With accepted settings, and no more accesses than there are 64-bit identities, the report that a run
returns accounts for every access. -/
theorem exists_accounted (valid : sc.bridge.validate = .ok ())
    (hlength : sc.traffic.length ≤ UInt64.size) :
    ∃ s, ofScenario sc = .ok s ∧
      ∀ n report, s.run? n = some (.ok report) → report.Accounts sc := by
  obtain ⟨s, g, m, hs, hrunning, -⟩ := exists_running valid hlength
  exact ⟨s, hs, fun n report hrun => hrunning.accounts_of_run? hs valid hlength hrun⟩

/-- Three timed accesses get past a memory that refuses every second request. -/
theorem accounted_contended :
    ∃ s report, ofScenario contended = .ok s ∧ s.run? 15 = some (.ok report) ∧
      report.Accounts contended ∧ report.issued = 3 ∧ report.memoryRefusals = (3 - 1) / (2 - 1) := by
  obtain ⟨s, hs, haccounts⟩ := @exists_accounted contended rfl (by decide)
  have hcounts : (ofScenario contended).map (fun s =>
      (s.run? 15).map fun result => result.map fun r => (r.issued, r.memoryRefusals)) =
        .ok (some (.ok (3, 2))) := by
    decide +kernel
  rw [hs] at hcounts
  obtain ⟨result, hrun, hcounted⟩ := Option.map_eq_some_iff.1 (Except.ok.inj hcounts)
  cases result with
  | error fault => contradiction
  | ok report =>
    obtain ⟨hissued, hrefusals⟩ := Prod.mk.inj (Except.ok.inj hcounted)
    exact ⟨s, report, hs, hrun, haccounts 15 report hrun, hissued, hrefusals⟩

end Simulation

end TimedBridge
