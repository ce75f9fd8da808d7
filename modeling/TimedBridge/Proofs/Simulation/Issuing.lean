import TimedBridge.Proofs.Simulation.Steps
import TimedBridge.Proofs.Simulation.Taking

/-!
What the issue of accesses does to the flow. An access is dropped, made at once, let in, or handed back
(`carried_issueOne`); the ones that are due follow each other until none is or one was handed back
(`takes_issueDue`); and the next one is scheduled.
-/

namespace TimedBridge

/-- Two queues with the same places and tickets. -/
structure TransmitQueue.Matches (q q' : TransmitQueue) : Prop where
  alike : q.Alike q'
  tickets : q'.packets.map Packet.ticket = q.packets.map Packet.ticket

namespace TransmitQueue

variable {q q' : TransmitQueue}

theorem Matches.refl (q : TransmitQueue) : q.Matches q := ⟨.refl q, rfl⟩

theorem matches_snoop {access left : Packet} {served : Bool}
    (h : q.snoop access = (q', left, served)) : q.Matches q' :=
  ⟨alike_snoop h, tickets_snoop h⟩

theorem Matches.awaitingRetry_eq (h : q.Matches q') : q'.awaitingRetry = q.awaitingRetry := by
  rw [h.alike.shell]

end TransmitQueue

namespace Simulation

variable {s : Simulation} {g : Generator} {m : Memory}

theorem flow_withQueues {responses requests : TransmitQueue}
    (hresponses : s.bridge.front.responses.Matches responses)
    (hrequests : s.bridge.back.requests.Matches requests) (g : Generator) (m : Memory) :
    { s with bridge := s.bridge.withQueues responses requests }.flow g m = s.flow g m := by
  simp only [flow, Bridge.withQueues, hresponses.alike.size_eq, hrequests.tickets,
    hrequests.awaitingRetry_eq, now]

theorem joins_withQueues {responses requests : TransmitQueue} (hjoins : s.bridge.Joins g m)
    (hresponses : s.bridge.front.responses.Matches responses) :
    (s.bridge.withQueues responses requests).Joins g m :=
  ⟨hjoins.initiator, hjoins.target, hresponses.awaitingRetry_eq.trans hjoins.keen, hjoins.stalled⟩

theorem flow_withGenerator (s : Simulation) {g g' : Generator}
    (h : g'.retryReceived = g.retryReceived) (m : Memory) :
    (s.withGenerator g').flow g' m = { s.flow g m with pending := g'.pending } := by
  simp only [flow, h]
  rfl

theorem generator_of_bound (h : s.bridge.front.agent = some g) : s.generator = .ok g := by
  rw [generator, h]

theorem memory_of_bound (h : s.bridge.back.agent = some m) : s.memory = .ok m := by
  rw [memory, h]

/-! ### One access -/

/-- The report, and the ticks that are kept for it, are no part of what keeps a simulation going. -/
theorem Driven.books (h : s.Driven) (issuedAt : List (RequestId × Tick)) (report : Report) :
    { s with issuedAt, report }.Driven :=
  ⟨h.tended, h.sound⟩

theorem Carried.books {P : Flow → Prop} (h : Carried P (s, .ok ()))
    (issuedAt : List (RequestId × Tick)) (report : Report) :
    Carried P ({ s with issuedAt, report }, .ok ()) := by
  obtain ⟨s', g, m, hresult, hdriven, hjoins, hflow⟩ := h
  obtain rfl : s = s' := congrArg Prod.fst hresult
  exact ⟨_, g, m, rfl, hdriven.books issuedAt report, hjoins, hflow⟩

/-- An access that was let in is counted, and its tick is kept if it will be answered. -/
theorem Carried.noted {P : Flow → Prop} (h : Carried P (s, .ok ())) (f : Report → Report)
    (answered : Bool) (id : RequestId) (tick : Tick) :
    Carried P
      (if answered then { s.count f with issuedAt := (s.count f).issuedAt ++ [(id, tick)] }
        else s.count f, .ok ()) := by
  cases answered
  · exact h.books _ _
  · exact h.books _ _

/-- The generator gets its access back and stalls. -/
theorem carried_stall (hdriven : s.Driven) (hinitiator : s.bridge.front.agent = some g)
    (htarget : s.bridge.back.agent = some m) (hkeen : s.bridge.front.responses.awaitingRetry = false)
    (hretry : s.bridge.front.retry = .pending) (i : Issue) :
    Carried (fun v => v = { s.flow g m with pending := i :: g.pending })
      (match s.generator with
        | .error fault => (s, .error fault)
        | .ok g => (s.withGenerator (g.stall i), .ok ())) := by
  rw [generator_of_bound hinitiator]
  refine ⟨s.withGenerator (g.stall i), g.stall i, m, rfl, hdriven.withGenerator _, ?_, ?_⟩
  · exact ⟨rfl, htarget, hkeen, iff_of_true rfl hretry⟩
  · exact s.flow_withGenerator rfl m

/-- A timed access is let in, or it is handed back and the generator stalls. -/
theorem carried_issueTimed (hdriven : s.Driven) (hjoins : s.bridge.Joins g m) {i : Issue}
    (hretry : s.bridge.front.retry = .idle) (htag : i.packet.tag = none)
    (hwaiting : i.packet.id ∉ s.bridge.table.entries.map Prod.fst) :
    Carried (fun v =>
        v = { s.flow g m with
          queued := (s.flow g m).queued ++ [i.packet.ticket]
          waiting := if i.packet.expectsResponse then (s.flow g m).waiting ++ [i.packet.id]
            else (s.flow g m).waiting } ∨
        v = { s.flow g m with
          pending := { i with tick := s.now } :: g.pending
          retry := .pending })
      (s.issueTimed i) := by
  have hmakes : ∀ {admission}, (s.bridge.submit s.now i.packet).answer = .ok admission →
      s.Makes (.submit i.packet) (s.bridge.submit s.now i.packet) :=
    makes_of_answering rfl
  have hend := s.bridge.submission_submit s.now i.packet
  rw [issueTimed]
  dsimp only
  generalize s.bridge.submit s.now i.packet = called at hend hmakes ⊢
  cases hend with
  | early hpending => simp [hretry] at hpending
  | alreadyTagged hidle hroom htagged => simp [htag] at htagged
  | duplicate hidle hroom htagged hexpects hduplicate =>
    exact absurd (RequestTable.contains_iff_mem.1 hduplicate) hwaiting
  | refused hidle hroom =>
    have hadopted := hdriven.adopt (hmakes rfl) (by simp)
    refine (carried_stall (g := g) (m := m) (hadopted.books _ _) ?_ ?_ ?_ rfl _).mono ?_
    · exact hjoins.initiator
    · exact hjoins.target
    · exact hjoins.keen
    · exact fun v hv => .inr hv
  | @accepted hidle hroom htagged table hsave =>
    have hadopted := hdriven.adopt (hmakes rfl) (by simp)
    have hqueued (now : Tick) : (s.bridge.pushRequest now i.packet).state.packets.map Packet.ticket =
        s.bridge.back.requests.packets.map Packet.ticket ++ [i.packet.ticket] := by
      rw [Bridge.pushRequest, TransmitQueue.packets_push _ _ hroom.1, List.map_append,
        List.map_singleton, Crossing.ticket_charge]
      rfl
    have hids : table.entries.map Prod.fst =
        if i.packet.expectsResponse then s.bridge.table.entries.map Prod.fst ++ [i.packet.id]
        else s.bridge.table.entries.map Prod.fst := by
      split at hsave
      next hexpects => rw [if_pos hexpects, RequestTable.ids_save hsave]
      next hexpects => rw [if_neg hexpects, Except.ok.inj hsave]
    have hawaiting (now : Tick) : (s.bridge.pushRequest now i.packet).state.awaitingRetry =
        s.bridge.back.requests.awaitingRetry :=
      TransmitQueue.awaitingRetry_push _ _ hroom.1
    refine Carried.noted (carried_adopt (g := g) (m := m) hadopted ?_ (.inl ?_)) _ _ _ _
    · exact ⟨hjoins.initiator, hjoins.target, hjoins.keen, hjoins.stalled⟩
    · simp only [flow, hqueued, hids, hawaiting, now]

/-- An access that is made at once changes bytes only. -/
theorem flow_withBytes (s : Simulation) (g : Generator) {m' : Memory} {p : Packet}
    (h : (m.perform p).1 = m') : (s.withMemory m').flow g m' = s.flow g m := by
  subst h
  exact s.flow_withMemory g (m.perform_eq p)

theorem carried_issueAtomic (hdriven : s.Driven) (hjoins : s.bridge.Joins g m) {p : Packet}
    (htag : p.tag = none) : Carried (fun v => v = s.flow g m) (s.issueAtomic p) := by
  have hmakes : ∀ {latency}, (s.bridge.atomic p).answer = .ok latency →
      s.Makes (.atomic p) ((s.bridge.atomic p).within Prod.fst) :=
    fun hanswer => makes_of_answering rfl hanswer
  have hend := s.bridge.atomicAccess_atomic p
  rw [issueAtomic]
  generalize s.bridge.atomic p = called at hend hmakes ⊢
  cases hend with
  | alreadyTagged htagged => simp [htag] at htagged
  | unbound htagged hagent => simp [hjoins.target] at hagent
  | @performed agent agent' answered latency htagged hagent hperform =>
    obtain rfl := Option.some.inj (hjoins.target.symm.trans hagent)
    have hadopted := hdriven.adopt (hmakes rfl) (by simp)
    refine (carried_adopt hadopted (g := g) (m := agent') ?_ ?_).books _ _
    · exact ⟨hjoins.initiator, rfl, hjoins.keen, hjoins.stalled⟩
    · exact s.flow_withBytes g (congrArg Prod.fst hperform)

theorem carried_issueFunctional (hdriven : s.Driven) (hjoins : s.bridge.Joins g m) {p : Packet}
    (htag : p.tag = none) : Carried (fun v => v = s.flow g m) (s.issueFunctional p) := by
  have hmakes : (s.bridge.functional p).answer = .ok () →
      s.Makes (.functional p) ((s.bridge.functional p).within Prod.fst) :=
    fun hanswer => makes_of_answering rfl hanswer
  have hend := s.bridge.functionalAccess_functional p
  rw [issueFunctional]
  generalize s.bridge.functional p = called at hend hmakes ⊢
  cases hend with
  | alreadyTagged htagged => simp [htag] at htagged
  | byResponse htagged hresponses =>
    have hadopted := hdriven.adopt (hmakes rfl) (by simp)
    have hmatches := TransmitQueue.matches_snoop hresponses
    refine (carried_adopt hadopted (joins_withQueues hjoins hmatches) ?_).books _ _
    exact flow_withQueues hmatches (.refl _) g m
  | byRequest htagged hresponses hrequests =>
    have hadopted := hdriven.adopt (hmakes rfl) (by simp)
    have hmatches := TransmitQueue.matches_snoop hresponses
    refine (carried_adopt hadopted (joins_withQueues hjoins hmatches) ?_).books _ _
    exact flow_withQueues hmatches (TransmitQueue.matches_snoop hrequests) g m
  | unbound htagged hresponses hrequests hagent => simp [hjoins.target] at hagent
  | @performed responses requests access left answered _ agent' htagged hresponses hrequests hagent
      hperform =>
    obtain rfl := Option.some.inj (hjoins.target.symm.trans hagent)
    have hadopted := hdriven.adopt (hmakes rfl) (by simp)
    have hmatches := TransmitQueue.matches_snoop hresponses
    refine (carried_adopt hadopted (g := g) (m := agent') ?_ ?_).books _ _
    · exact ⟨hjoins.initiator, rfl, hmatches.awaitingRetry_eq.trans hjoins.keen, hjoins.stalled⟩
    · have hflow := flow_withQueues hmatches (TransmitQueue.matches_snoop hrequests) g m
      rw [← hflow]
      exact flow_withBytes { s with bridge := s.bridge.withQueues responses requests } g
        (congrArg Prod.fst hperform)

/-- The next access is issued when it is due. -/
theorem carried_issueOne (hdriven : s.Driven) (hjoins : s.bridge.Joins g m)
    (hconsistent : (s.flow g m).Consistent) (hretry : s.bridge.front.retry = .idle) {i : Issue}
    {rest : List Issue} (hpending : g.pending = i :: rest) (hdue : i.tick ≤ s.now) :
    Carried (s.flow g m).Issues ((s.withGenerator { g with pending := rest }).issueOne i) := by
  have hdriven' := hdriven.withGenerator { g with pending := rest }
  have hjoins' :
      (s.withGenerator { g with pending := rest }).bridge.Joins { g with pending := rest } m :=
    ⟨rfl, hjoins.target, hjoins.keen, hjoins.stalled⟩
  have hflow : (s.withGenerator { g with pending := rest }).flow { g with pending := rest } m =
      { s.flow g m with pending := rest } :=
    s.flow_withGenerator rfl m
  have hmem : i ∈ g.pending := hpending ▸ List.mem_cons_self
  have htag := hconsistent.untagged i hmem
  rw [issueOne]
  cases hroutable : (s.withGenerator { g with pending := rest }).routable i.packet with
  | false =>
    have hgone : Carried (s.flow g m).Issues (s.withGenerator { g with pending := rest }, .ok ()) := by
      refine ⟨_, _, m, rfl, hdriven', hjoins', ?_⟩
      rw [hflow]
      refine .gone hretry hpending hdue ?_
      rintro ⟨-, hcovered⟩
      exact Bool.false_ne_true (hroutable.symm.trans hcovered)
    exact hgone.books _ _
  | true =>
    rw [if_pos rfl]
    cases hmode : i.mode with
    | timing =>
      have hcrosses : (s.flow g m).Crosses i := ⟨hmode, hroutable⟩
      have hwaiting := hconsistent.not_mem_waiting hmem
      refine (carried_issueTimed hdriven' hjoins' hretry htag hwaiting).mono fun v hv => ?_
      rw [hflow] at hv
      rcases hv with rfl | rfl
      · exact .admitted hretry hpending hdue hcrosses
      · exact .refused hretry hpending hdue hcrosses
    | atomic =>
      refine (carried_issueAtomic hdriven' hjoins' htag).mono fun v hv => ?_
      rw [hv, hflow]
      exact .gone hretry hpending hdue (by simp [Flow.Crosses, hmode])
    | functional =>
      refine (carried_issueFunctional hdriven' hjoins' htag).mono fun v hv => ?_
      rw [hv, hflow]
      exact .gone hretry hpending hdue (by simp [Flow.Crosses, hmode])

/-! ### All accesses that are due -/

/-- A generator that does not stall has an access that is due, or none. -/
theorem nextDue_of_running (hstalled : g.stalled = false) (now : Tick) :
    (∃ i rest, g.pending = i :: rest ∧ i.tick ≤ now ∧
        g.nextDue? now = some (i, { g with pending := rest })) ∨
      (∀ i ∈ g.pending.head?, now < i.tick) ∧ g.nextDue? now = none := by
  rw [Generator.nextDue?, hstalled]
  cases hpending : g.pending with
  | nil => exact .inr ⟨fun i h => absurd h (by simp), rfl⟩
  | cons i rest =>
    by_cases hdue : i.tick ≤ now
    · exact .inl ⟨i, rest, rfl, hdue, if_pos hdue⟩
    · refine .inr ⟨fun j hj => ?_, if_neg hdue⟩
      obtain rfl := Option.some.inj hj
      exact UInt64.not_le.1 hdue

/-- When nothing is due, or a retry is owed, nothing is issued. -/
theorem issueDue_of_done (hinitiator : s.bridge.front.agent = some g)
    (hdone : s.bridge.front.retry = .pending ∨ ∀ i ∈ g.pending.head?, s.now < i.tick) (n : Nat) :
    s.issueDue n = (s, .ok ()) := by
  cases n with
  | zero => rfl
  | succ n =>
    rw [issueDue, generator_of_bound hinitiator]
    cases hretry : s.bridge.front.retry with
    | pending => rfl
    | idle =>
      have hearly := hdone.resolve_left (by simp [hretry])
      have hnext : g.nextDue? s.now = none := by
        rw [Generator.nextDue?]
        split
        next i rest hstalled hpending =>
          exact if_neg (UInt64.not_le.2 (hearly i (by rw [hpending]; rfl)))
        next => rfl
      simp only [hnext]

/-- Taking the next access out, and issuing it, is the first step of issuing all that are due. -/
theorem issueDue_cons (hinitiator : s.bridge.front.agent = some g) (hstalled : g.stalled = false)
    (hretry : s.bridge.front.retry = .idle) {i : Issue} {rest : List Issue}
    (hpending : g.pending = i :: rest) (hdue : i.tick ≤ s.now) {t : Simulation}
    (hissued : (s.withGenerator { g with pending := rest }).issueOne i = (t, .ok ())) (n : Nat) :
    s.issueDue (n + 1) = t.issueDue n := by
  have hnext : g.nextDue? s.now = some (i, { g with pending := rest }) := by
    rw [Generator.nextDue?, hstalled, hpending]
    exact if_pos hdue
  rw [Simulation.issueDue, generator_of_bound hinitiator, hretry]
  simp only [hnext, hissued]

/-- The accesses that are due are issued. -/
theorem takes_issueDue (n : Nat) (hdriven : s.Driven) (hjoins : s.bridge.Joins g m)
    (hconsistent : (s.flow g m).Consistent)
    (henough : g.pending.length ≤ n ∨ s.bridge.front.retry = .pending) :
    Carried ((s.flow g m).Takes (s.takenDue n)) (s.issueDue n) := by
  induction n generalizing s g m with
  | zero =>
    refine ⟨s, g, m, rfl, hdriven, hjoins, .done ?_⟩
    rcases henough with hnone | hretry
    · refine .inr fun i hi => ?_
      rw [show (s.flow g m).pending = [] from List.length_eq_zero_iff.1 (Nat.le_zero.1 hnone)] at hi
      contradiction
    · exact .inl hretry
  | succ n ih =>
    rw [issueDue, takenDue, generator_of_bound hjoins.initiator]
    cases hretry : s.bridge.front.retry with
    | pending => exact ⟨s, g, m, rfl, hdriven, hjoins, .done (.inl hretry)⟩
    | idle =>
      have hstalled : g.stalled = false := by
        simpa [hretry] using hjoins.stalled
      rcases nextDue_of_running hstalled s.now with ⟨i, rest, hpending, hdue, hnext⟩ | ⟨hearly, hnext⟩
      · obtain ⟨s', g', m', hresult, hdriven', hjoins', hissues⟩ :=
          carried_issueOne hdriven hjoins hconsistent hretry hpending hdue
        simp only [hnext, hresult]
        have hconsistent' := hissues.consistent hconsistent
        refine (ih hdriven' hjoins' hconsistent' ?_).mono fun v hv => .next hpending hissues hv
        rcases hissues.shorter with hshorter | hretry'
        · have hlength : g.pending.length ≤ n + 1 :=
            henough.resolve_right (by simp [hretry])
          exact .inl (Nat.le_of_lt_succ (Nat.lt_of_lt_of_le hshorter hlength))
        · exact .inr hretry'
      · simp only [hnext]
        exact ⟨s, g, m, rfl, hdriven, hjoins, .done (.inr hearly)⟩

theorem carried_issueDue (n : Nat) (hdriven : s.Driven) (hjoins : s.bridge.Joins g m)
    (hconsistent : (s.flow g m).Consistent)
    (henough : g.pending.length ≤ n ∨ s.bridge.front.retry = .pending) :
    Carried (Flow.IssuesDue (s.flow g m)) (s.issueDue n) :=
  (takes_issueDue n hdriven hjoins hconsistent henough).mono fun _ htakes => htakes.issuesDue

/-! ### The next issue -/

/-- An issue that is scheduled adds to those to come. -/
theorem flow_schedule_issue (s : Simulation) (g : Generator) (m : Memory) {tick : Tick}
    (hlater : s.now ≤ tick) :
    (s.schedule .issue tick).flow g m =
      { s.flow g m with issues := tick ::ₘ (s.flow g m).issues } := by
  have hmax : max tick s.agenda.now = tick := max_eq_of_le hlater
  have hnow : (s.agenda.schedule .issue tick).now = s.agenda.now := rfl
  have hticks (event : SimEvent) := Agenda.ticks_schedule s.agenda .issue tick event
  cases hreceived : g.retryReceived with
  | false => simp [flow, Simulation.schedule, hticks, hmax, hreceived, now, hnow]
  | true =>
    simp [flow, Simulation.schedule, hticks, hmax, hreceived, now, hnow, Multiset.cons_swap tick]

/-- The tick that is noted as armed is no part of what keeps a simulation going. -/
theorem Driven.rearmed (h : s.Driven) (armed : Option Tick) : { s with armed }.Driven :=
  ⟨h.tended, h.sound⟩

/-- The next access gets its issue. -/
theorem carried_armIssue (hdriven : s.Driven) (hjoins : s.bridge.Joins g m) :
    Carried (fun v => v = (s.flow g m).arm) s.armIssue := by
  rw [armIssue, generator_of_bound hjoins.initiator]
  dsimp only
  cases hretry : s.bridge.front.retry with
  | pending =>
    have hnext : g.nextTick? = none := if_pos (hjoins.stalled.2 hretry)
    rw [hnext, Flow.arm_of_pending (by exact hretry)]
    exact ⟨s, g, m, rfl, hdriven, hjoins, rfl⟩
  | idle =>
    have hnext : g.nextTick? = g.pending.head?.map Issue.tick :=
      if_neg (by simp [hjoins.stalled, hretry])
    rw [hnext]
    cases hpending : g.pending with
    | nil =>
      rw [Flow.arm_of_nil (by exact hpending)]
      exact ⟨s, g, m, rfl, hdriven, hjoins, rfl⟩
    | cons i rest =>
      dsimp only [List.head?_cons, Option.map_some]
      rw [Flow.arm_of_cons (by exact hretry) (by exact hpending)]
      by_cases harmed : s.armed.any (· ≤ max i.tick s.now) = true
      · rw [if_pos harmed, if_pos (by exact harmed)]
        exact ⟨s, g, m, rfl, hdriven, hjoins, rfl⟩
      · rw [if_neg harmed, if_neg (by exact harmed)]
        have hlater : s.now ≤ max i.tick s.now := by
          rw [UInt64.le_iff_toNat_le, toNat_max]
          exact Nat.le_max_right ..
        have harmed' := hdriven.rearmed (some (max i.tick s.now))
        refine ⟨_, g, m, rfl, harmed'.schedule (by simp) _, hjoins, ?_⟩
        exact flow_schedule_issue { s with armed := some (max i.tick s.now) } g m hlater

/-- With the issue that has come due no longer noted. -/
def disarmed (s : Simulation) : Simulation :=
  if s.armed = some s.now then { s with armed := none } else s

theorem bridge_disarmed (s : Simulation) : s.disarmed.bridge = s.bridge := by
  rw [disarmed]
  split <;> rfl

theorem flow_disarmed (s : Simulation) (g : Generator) (m : Memory) :
    s.disarmed.flow g m = (s.flow g m).disarm s.now := by
  rw [disarmed, Flow.disarm]
  by_cases harmed : s.armed = some s.now
  · rw [if_pos harmed, if_pos (by exact harmed)]
    rfl
  · rw [if_neg harmed, if_neg (by exact harmed)]

theorem Driven.disarmed (h : s.Driven) : s.disarmed.Driven := by
  rw [Simulation.disarmed]
  split
  next => exact h.rearmed none
  next => exact h

theorem consistent_disarmed (h : (s.flow g m).Consistent) : (s.disarmed.flow g m).Consistent := by
  rw [flow_disarmed]
  exact ⟨h.waiting, h.distinct, h.untagged⟩

theorem generator_disarmed (hinitiator : s.bridge.front.agent = some g) :
    s.disarmed.generator = .ok g :=
  generator_of_bound (s.bridge_disarmed ▸ hinitiator)

/-- When the accesses that are due are issued, the next one gets its issue. -/
theorem issue_of_due (hinitiator : s.bridge.front.agent = some g) {t : Simulation}
    (hdue : s.disarmed.issueDue g.remaining = (t, .ok ())) : s.issue = t.armIssue := by
  have hgenerator := generator_disarmed hinitiator
  rw [disarmed] at hdue hgenerator
  rw [issue, hgenerator]
  dsimp only
  rw [hdue]

theorem exists_due_of_issue (hinitiator : s.bridge.front.agent = some g) {s' : Simulation}
    (hok : s.issue = (s', .ok ())) :
    ∃ t, s.disarmed.issueDue g.remaining = (t, .ok ()) ∧ t.armIssue = (s', .ok ()) := by
  have hgenerator := generator_disarmed hinitiator
  rw [disarmed] at hgenerator ⊢
  rw [issue, hgenerator] at hok
  dsimp only at hok
  split at hok
  next => cases hok
  next t hdue => exact ⟨t, hdue, hok⟩

/-- The issue that has come due is no longer the one that is scheduled for the next access. -/
theorem takes_issue (hdriven : s.Driven) (hjoins : s.bridge.Joins g m)
    (hconsistent : (s.flow g m).Consistent) :
    Carried (fun v => ∃ v', ((s.flow g m).disarm s.now).Takes (s.disarmed.takenDue g.remaining) v' ∧
      v = v'.arm) s.issue := by
  have hjoins' : s.disarmed.bridge.Joins g m := s.bridge_disarmed ▸ hjoins
  obtain ⟨t, g₁, m₁, hresult, hdriven₁, hjoins₁, htakes⟩ := takes_issueDue g.remaining
    hdriven.disarmed hjoins' (consistent_disarmed hconsistent) (.inl (Nat.le_refl _))
  rw [issue_of_due hjoins.initiator hresult, ← flow_disarmed]
  exact (carried_armIssue hdriven₁ hjoins₁).mono fun v hv => ⟨_, htakes, hv⟩

theorem carried_disarm (hdriven : s.Driven) (hjoins : s.bridge.Joins g m)
    (hconsistent : (s.flow g m).Consistent) :
    Carried (fun v => ∃ v', Flow.IssuesDue ((s.flow g m).disarm s.now) v' ∧ v = v'.arm) s.issue := by
  refine (takes_issue hdriven hjoins hconsistent).mono ?_
  rintro v ⟨v', htakes, harm⟩
  exact ⟨v', htakes.issuesDue, harm⟩

theorem consistent_popped (h : (s.flow g m).Consistent) (agenda : Agenda SimEvent) :
    ({ s with agenda }.flow g m).Consistent :=
  ⟨h.waiting, h.distinct, h.untagged⟩

/-- The generator may issue. -/
theorem carried_issue {tick : Tick} {agenda : Agenda SimEvent} (h : s.Running g m)
    (hpop : s.agenda.pop? = some (tick, .issue, agenda)) :
    Carried (s.flow g m).Step ({ s with agenda }.dispatch .issue) := by
  obtain ⟨hdriven, hjoins, hquiet, hconsistent, -⟩ := h
  obtain ⟨rest, hissues, hcurrent, hflow⟩ := flow_pop_issue hpop hquiet
  obtain ⟨-, -, hnow, -⟩ := Agenda.pending_of_pop hpop
  have hdriven' := hdriven.popped hpop (by simp)
  refine (carried_disarm hdriven' hjoins (consistent_popped hconsistent agenda)).mono ?_
  rintro v ⟨v', hdue, rfl⟩
  rw [hflow, now, hnow] at hdue
  exact .issued tick hissues hcurrent hdue

end Simulation

end TimedBridge
