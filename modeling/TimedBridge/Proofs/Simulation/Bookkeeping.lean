import TimedBridge.Proofs.Simulation.Account
import TimedBridge.Proofs.Simulation.Moves

/-!
A simulation keeps its account. Each call on the bridge and each event that is carried out without a
fault changes the account by moves (`leads_dispatch`), and so does looking after the agents
(`leads_lookAfter`), so that every run does (`Running.leads_after`).
-/

namespace TimedBridge

open Relation (ReflTransGen)

/-! ### Calls on the bridge -/

namespace Bridge

variable {b : Bridge Generator Memory} {g : Generator} {m : Memory} {v : Account}
  {expected : List RequestId} {report : Report} {now : Tick}

/-- The account of a bridge between a generator and a memory, with what is noted about it beside. -/
def account (b : Bridge Generator Memory) (g : Generator) (m : Memory) (expected : List RequestId)
    (report : Report) : Account where
  ranges := b.front.ranges
  refuseEvery := m.refuseEvery
  pending := g.pending.map fun i =>
    (Bin.of (b.front.ranges.any (·.covers i.packet.footprint)) i.mode, i.packet.ticket)
  queued := b.back.requests.size
  waiting := b.table.entries.map Prod.fst
  returning := (g.responses ++ b.front.responses.packets).map Packet.id
  expected
  retry := b.front.retry
  retries := g.retries
  offered := m.offered
  refusals := m.refusals
  report

/-- The bridge is between a generator and a memory and has the given account. -/
def Books (b : Bridge Generator Memory) (expected : List RequestId) (report : Report) (v : Account) :
    Prop :=
  ∃ g m, b.front.agent = some g ∧ b.back.agent = some m ∧ b.account g m expected report = v

/-- The bridge has an account to which moves lead from `v`. -/
def Leads (b : Bridge Generator Memory) (expected : List RequestId) (report : Report) (v : Account) :
    Prop :=
  ∃ v', b.Books expected report v' ∧ ReflTransGen Account.Moves v v'

theorem Books.leads (h : b.Books expected report v) : b.Leads expected report v := ⟨v, h, .refl⟩

theorem Leads.after {v₀ : Account} (h : b.Leads expected report v) (hmove : v₀.Moves v) :
    b.Leads expected report v₀ := by
  obtain ⟨v', hbooks, hmoves⟩ := h
  exact ⟨v', hbooks, .head hmove hmoves⟩

/-- What is noted beside a bridge does not concern it. -/
theorem Books.noted (h : b.Books expected report v) (expected' : List RequestId) (report' : Report) :
    b.Books expected' report' { v with expected := expected', report := report' } := by
  obtain ⟨g, m, hinitiator, htarget, rfl⟩ := h
  exact ⟨g, m, hinitiator, htarget, rfl⟩

theorem Books.reported (h : b.Books expected report v) (report' : Report) :
    b.Books expected report' { v with report := report' } := by
  obtain ⟨g, m, hinitiator, htarget, rfl⟩ := h
  exact ⟨g, m, hinitiator, htarget, rfl⟩

theorem Books.expected_eq (h : b.Books expected report v) : v.expected = expected := by
  obtain ⟨g, m, -, -, rfl⟩ := h
  rfl

theorem Books.ranges_eq (h : b.Books expected report v) : v.ranges = b.front.ranges := by
  obtain ⟨g, m, -, -, rfl⟩ := h
  rfl

theorem Books.report_eq (h : b.Books expected report v) : v.report = report := by
  obtain ⟨g, m, -, -, rfl⟩ := h
  rfl

theorem Books.sendOwedRetry (h : b.Books expected report v) :
    b.sendOwedRetry.state.Leads expected report v := by
  obtain ⟨g, m, hinitiator, htarget, rfl⟩ := h
  rw [(sendOwedRetry_of_bound hinitiator).1, wake]
  split
  next => exact Books.leads ⟨g, m, hinitiator, htarget, rfl⟩
  next hretry => exact Leads.after (Books.leads ⟨_, m, rfl, htarget, rfl⟩) (.retried hretry)

/-- The memory is offered the oldest request, or nothing moves. -/
theorem Books.trySendRequest (h : b.Books expected report v) (now : Tick) :
    (b.trySendRequest now).state.Leads expected report v := by
  obtain ⟨g, m, hinitiator, htarget, rfl⟩ := h
  have hend := b.requestSending_trySendRequest now
  generalize b.trySendRequest now = called at hend ⊢
  cases hend with
  | unbound hagent => simp [htarget] at hagent
  | empty hagent hentries => exact Books.leads ⟨g, m, hinitiator, htarget, rfl⟩
  | early hagent hentries hearly =>
    obtain rfl := Option.some.inj (htarget.symm.trans hagent)
    refine Books.leads ⟨g, m, hinitiator, rfl, ?_⟩
    simp only [account, setBack, TransmitQueue.size, TransmitQueue.entries_arm]
  | @refused agent agent' head rest packet hagent hentries hdue hoffer =>
    obtain rfl := Option.some.inj (htarget.symm.trans hagent)
    have hqueued : 0 < (b.account g m expected report).queued := by
      simp [account, TransmitQueue.size, hentries]
    obtain ⟨hrefuses, -, rfl⟩ := Memory.refuses_of_offer_refused hoffer
    refine Leads.after (Books.leads ⟨g, _, hinitiator, rfl, ?_⟩) (.balked hqueued hrefuses)
    simp [account, setBack, TransmitQueue.size, hentries]
  | @taken agent agent' head rest hagent hentries hdue hoffer =>
    obtain rfl := Option.some.inj (htarget.symm.trans hagent)
    have hqueued : (b.account g m expected report).queued = rest.length + 1 :=
      congrArg List.length hentries
    obtain ⟨htakes, rfl⟩ := Memory.takes_of_offer_accepted hoffer
    refine Leads.after (Books.sendOwedRetry ⟨g, _, hinitiator, rfl, ?_⟩) (.taken hqueued htakes)
    simp only [account, setBack, TransmitQueue.size, TransmitQueue.entries_armForHead]

/-- A response that the generator takes is still among those that come back. -/
theorem books_departure (htarget : b.back.agent = some m) {head : Deferred} {rest : List Deferred}
    (hentries : b.front.responses.entries = head :: rest) (now : Tick) :
    (b.setFront ({ b.front.responses with entries := rest }.armForHead now).state
      { g with responses := g.responses ++ [head.packet] }).Books expected report
        (b.account g m expected report) := by
  refine ⟨_, m, rfl, htarget, ?_⟩
  simp only [account, setFront, TransmitQueue.packets, TransmitQueue.entries_armForHead, hentries,
    List.map_cons, List.append_assoc, List.singleton_append]

/-- The generator takes the oldest response, or nothing moves. -/
theorem Books.trySendResponse (h : b.Books expected report v) (now : Tick) :
    (b.trySendResponse now).state.Leads expected report v := by
  obtain ⟨g, m, hinitiator, htarget, rfl⟩ := h
  have hend := b.responseSending_trySendResponse now
  generalize b.trySendResponse now = called at hend ⊢
  cases hend with
  | unbound hagent => simp [hinitiator] at hagent
  | empty hagent hentries => exact Books.leads ⟨g, m, hinitiator, htarget, rfl⟩
  | early hagent hentries hearly =>
    obtain rfl := Option.some.inj (hinitiator.symm.trans hagent)
    refine Books.leads ⟨g, m, rfl, htarget, ?_⟩
    simp only [account, setFront, TransmitQueue.packets, TransmitQueue.entries_arm]
  | refused hagent hentries hdue hoffer => simp [Initiator.offerResponse] at hoffer
  | unreserved hagent hentries hdue hoffer hreserved =>
    obtain rfl := Option.some.inj (hinitiator.symm.trans hagent)
    obtain ⟨rfl, -⟩ := Prod.mk.inj hoffer
    exact Books.leads (books_departure htarget hentries now)
  | takenFull hagent hentries hdue hoffer hreserved hfull =>
    obtain rfl := Option.some.inj (hinitiator.symm.trans hagent)
    obtain ⟨rfl, -⟩ := Prod.mk.inj hoffer
    exact Books.leads (books_departure htarget hentries now)
  | @taken _ _ _ _ reserved hagent hentries hdue hoffer hreserved hfull =>
    obtain rfl := Option.some.inj (hinitiator.symm.trans hagent)
    obtain ⟨rfl, -⟩ := Prod.mk.inj hoffer
    have hreleased : (_ : Bridge Generator Memory).Books expected report _ :=
      books_departure (b := b) (g := g) htarget hentries now
    exact Books.sendOwedRetry (b := (b.setFront _ _).releaseSlot reserved) hreleased

theorem Books.attempt (h : b.Books expected report v) (now : Tick) (d : Direction) :
    (b.attempt now d).state.Leads expected report v := by
  cases d with
  | request =>
    have hdue : { b with back := { b.back with requests := b.back.requests.attemptDue } }.Books
        expected report v := h
    exact hdue.trySendRequest now
  | response =>
    have hdue : { b with front := { b.front with responses := b.front.responses.attemptDue } }.Books
        expected report v := h
    exact hdue.trySendResponse now

theorem Books.requestRetry (h : b.Books expected report v) (now : Tick) :
    (b.requestRetry now).state.Leads expected report v := by
  rw [Bridge.requestRetry, TransmitQueue.takeRetry]
  split
  next heq =>
    split at heq
    next => contradiction
    next => exact h.leads
  next heq =>
    split at heq
    next =>
      cases heq
      have htaken : { b with back := { b.back with
          requests := { b.back.requests with awaitingRetry := false } } }.Books expected report v := h
      exact htaken.trySendRequest now
    next => contradiction

/-- The memory answers. -/
theorem Books.respond {p : Packet} (h : b.Books expected report v)
    (hok : (b.respond now p).answer = .ok ()) :
    (b.respond now p).state.Leads expected report v := by
  obtain ⟨g, m, hinitiator, htarget, rfl⟩ := h
  have hend := b.reception_respond now p
  generalize b.respond now p = called at hend hok ⊢
  cases hend with
  | unknown => contradiction
  | overflow => contradiction
  | @queued route table htake hroom =>
    have hid : p.id ∈ (b.account g m expected report).waiting := by
      refine RequestTable.contains_iff_mem.1 ?_
      rw [RequestTable.contains, RequestTable.route?_of_take htake]
      rfl
    refine Leads.after (Books.leads ⟨g, m, hinitiator, htarget, ?_⟩) (.answered hid)
    simp only [account, pushResponse, TransmitQueue.packets_push _ _ hroom, RequestTable.ids_take htake,
      List.map_append, List.map_singleton, List.append_assoc, Crossing.id_charge]

/-- A generator that has been handed its access back has it to issue again. -/
theorem Books.stall (h : b.Books expected report v) {g : Generator} (hinitiator : b.front.agent = some g)
    (i : Issue) :
    (b.withInitiator (g.stall i)).Books expected report
      { v with
        pending := (Bin.of (v.ranges.any (·.covers i.packet.footprint)) i.mode, i.packet.ticket) ::
          v.pending } := by
  obtain ⟨g', m, hinitiator', htarget, rfl⟩ := h
  obtain rfl := Option.some.inj (hinitiator.symm.trans hinitiator')
  exact ⟨_, m, rfl, htarget, rfl⟩

/-- A generator from which the next access has been taken has the others to issue. -/
theorem Books.next (h : b.Books expected report v) {g : Generator} (hinitiator : b.front.agent = some g)
    {i : Issue} {rest : List Issue} (hpending : g.pending = i :: rest) :
    ∃ u : Account, (b.withInitiator { g with pending := rest }).Books expected report u ∧
      v = { u with
        pending := (Bin.of (b.front.ranges.any (·.covers i.packet.footprint)) i.mode, i.packet.ticket) ::
          u.pending } := by
  obtain ⟨g', m, hinitiator', htarget, rfl⟩ := h
  obtain rfl := Option.some.inj (hinitiator.symm.trans hinitiator')
  refine ⟨_, ⟨_, m, rfl, htarget, rfl⟩, ?_⟩
  rw [account, hpending]
  rfl

/-- A timed access is handed back. -/
theorem Books.submit_refused {p q : Packet} (h : b.Books expected report v)
    (hrefused : (b.submit now p).answer = .ok (.refused q)) :
    q = p ∧ v.retry = .idle ∧
      (b.submit now p).state.Books expected report { v with retry := .pending } := by
  obtain ⟨g, m, hinitiator, htarget, rfl⟩ := h
  have hend := b.submission_submit now p
  generalize b.submit now p = called at hend hrefused ⊢
  cases hend with
  | early => contradiction
  | refused hretry =>
    cases hrefused
    exact ⟨rfl, hretry, g, m, hinitiator, htarget, rfl⟩
  | alreadyTagged => contradiction
  | duplicate => contradiction
  | accepted => cases hrefused

/-- A timed access is let in. -/
theorem Books.submit_accepted {p : Packet} (h : b.Books expected report v)
    (haccepted : (b.submit now p).answer = .ok .accepted) :
    (b.submit now p).state.Books expected report
      { v with
        queued := v.queued + 1
        waiting := if p.expectsResponse then v.waiting ++ [p.id] else v.waiting } := by
  obtain ⟨g, m, hinitiator, htarget, rfl⟩ := h
  have hend := b.submission_submit now p
  generalize b.submit now p = called at hend haccepted ⊢
  cases hend with
  | early => contradiction
  | refused => cases haccepted
  | alreadyTagged => contradiction
  | duplicate => contradiction
  | @accepted hretry hroom htag table hsave =>
    refine ⟨g, m, hinitiator, htarget, ?_⟩
    have hids : table.entries.map Prod.fst =
        if p.expectsResponse then b.table.entries.map Prod.fst ++ [p.id]
        else b.table.entries.map Prod.fst := by
      split at hsave
      next hexpects => rw [if_pos hexpects, RequestTable.ids_save hsave]
      next hexpects => rw [if_neg hexpects, Except.ok.inj hsave]
    simp only [account, pushRequest, TransmitQueue.size_push _ _ hroom.1, hids]

/-- An access that is made at once changes no more than bytes. -/
theorem books_performed {responses requests : TransmitQueue} {p : Packet} {m' : Memory}
    (hresponses : responses.packets.map Packet.id = b.front.responses.packets.map Packet.id)
    (hrequests : requests.size = b.back.requests.size) (hm : (m.perform p).1 = m')
    (hinitiator : b.front.agent = some g) :
    ((b.withQueues responses requests).withTarget m').Books expected report
      (b.account g m expected report) := by
  refine ⟨g, m', hinitiator, rfl, ?_⟩
  rw [← hm, m.perform_eq p]
  simp only [account, withTarget, withQueues, List.map_append, hresponses, hrequests]

theorem Books.atomic {p : Packet} {latency : Tick} (h : b.Books expected report v)
    (hok : (b.atomic p).answer = .ok latency) : (b.atomic p).state.1.Books expected report v := by
  obtain ⟨g, m, hinitiator, htarget, rfl⟩ := h
  have hend := b.atomicAccess_atomic p
  generalize b.atomic p = called at hend hok ⊢
  cases hend with
  | alreadyTagged => contradiction
  | unbound => contradiction
  | performed htag hagent hperform =>
    obtain rfl := Option.some.inj (htarget.symm.trans hagent)
    exact books_performed rfl rfl (congrArg Prod.fst hperform) hinitiator

theorem ids_snoop {q q' : TransmitQueue} {access left : Packet} {served : Bool}
    (h : q.snoop access = (q', left, served)) :
    q'.packets.map Packet.id = q.packets.map Packet.id := by
  have htickets := congrArg (List.map Ticket.id) (TransmitQueue.tickets_snoop h)
  rwa [List.map_map, List.map_map] at htickets

theorem Books.functional {p : Packet} (h : b.Books expected report v)
    (hok : (b.functional p).answer = .ok ()) : (b.functional p).state.1.Books expected report v := by
  obtain ⟨g, m, hinitiator, htarget, rfl⟩ := h
  have hend := b.functionalAccess_functional p
  generalize b.functional p = called at hend hok ⊢
  cases hend with
  | alreadyTagged => contradiction
  | byResponse htag hresponses =>
    refine ⟨g, m, hinitiator, htarget, ?_⟩
    simp only [account, withQueues, List.map_append, ids_snoop hresponses]
  | byRequest htag hresponses hrequests =>
    refine ⟨g, m, hinitiator, htarget, ?_⟩
    simp only [account, withQueues, List.map_append, ids_snoop hresponses,
      (TransmitQueue.alike_snoop hrequests).size_eq]
  | unbound => contradiction
  | performed htag hresponses hrequests hagent hperform =>
    obtain rfl := Option.some.inj (htarget.symm.trans hagent)
    exact books_performed (ids_snoop hresponses) (TransmitQueue.alike_snoop hrequests).size_eq
      (congrArg Prod.fst hperform) hinitiator

end Bridge

/-! ### Accesses are issued -/

namespace Simulation

variable {s s' : Simulation} {v : Account}

/-- The simulation has the given account. -/
def Books (s : Simulation) (v : Account) : Prop :=
  s.bridge.Books (s.issuedAt.map Prod.fst) s.report v

/-- The simulation has an account to which moves lead from `v`. -/
def Leads (s : Simulation) (v : Account) : Prop :=
  s.bridge.Leads (s.issuedAt.map Prod.fst) s.report v

theorem scheduleAsked_eq (s : Simulation) (effects : List Effect) :
    s.scheduleAsked effects = { s with agenda := (s.scheduleAsked effects).agenda } := by
  rw [scheduleAsked]
  induction Effect.asked effects generalizing s with
  | nil => rfl
  | cons ask rest ih =>
    rw [List.foldl_cons, ih]
    rfl

/-- To take over what a call has left behind is to take over its bridge, and to schedule. -/
theorem adopt_eq {α : Type} (s : Simulation) (o : Outcome (Bridge Generator Memory) α) :
    s.adopt o = { s with bridge := o.state, agenda := (s.adopt o).agenda } :=
  scheduleAsked_eq { s with bridge := o.state } o.effects

/-- An access that waits, as it stands in the account. -/
def entry (s : Simulation) (i : Issue) : Bin × Ticket :=
  (Bin.of (s.routable i.packet) i.mode, i.packet.ticket)

theorem books_issueTimed {i : Issue} (h : s.Books v) (hok : s.issueTimed i = (s', .ok ()))
    (hentry : s.entry i = (.timed, i.packet.ticket)) :
    ∃ v', s'.Books v' ∧ { v with pending := s.entry i :: v.pending }.Moves v' := by
  have hexpected := h.expected_eq
  have hreport := h.report_eq
  rw [issueTimed] at hok
  dsimp only at hok
  rw [adopt_eq] at hok
  split at hok
  next => cases hok
  next haccepted =>
    have hbooks := h.submit_accepted haccepted
    rw [hentry]
    refine ⟨_, ?_, .admitted rfl⟩
    obtain rfl := congrArg Prod.fst hok
    rw [Books, Report.tallied, hexpected, hreport]
    cases hexpects : i.packet.expectsResponse with
    | false => simpa [Packet.ticket, count, hexpects] using hbooks.noted _ _
    | true => simpa [Packet.ticket, count, hexpects] using hbooks.noted _ _
  next packet hrefused =>
    obtain ⟨rfl, hidle, hbooks⟩ := h.submit_refused hrefused
    obtain ⟨g, m, hinitiator, -⟩ := id hbooks
    rw [generator_of_bound (by exact hinitiator)] at hok
    obtain rfl := congrArg Prod.fst hok
    refine ⟨_, ?_, .refused hidle⟩
    rw [entry, routable, ← h.ranges_eq, hreport]
    have hstalled := (hbooks.stall hinitiator { i with tick := s.now }).noted v.expected
      { s.report with refused := s.report.refused + 1 }
    rw [hexpected] at hstalled ⊢
    exact hstalled

theorem books_issueAtomic {p : Packet} (h : s.Books v) (hok : s.issueAtomic p = (s', .ok ())) :
    ∃ latency,
      s'.Books { v with report := { v.report.tallied .atomic with maxAtomicLatency := latency } } := by
  rw [issueAtomic] at hok
  split at hok
  next => cases hok
  next latency hanswer =>
    rw [adopt_eq] at hok
    obtain rfl := congrArg Prod.fst hok
    refine ⟨max s.report.maxAtomicLatency latency, ?_⟩
    rw [h.report_eq]
    exact (h.atomic hanswer).reported _

theorem books_issueFunctional {p : Packet} (h : s.Books v)
    (hok : s.issueFunctional p = (s', .ok ())) :
    s'.Books { v with report := v.report.tallied .functional } := by
  rw [issueFunctional] at hok
  split at hok
  next => cases hok
  next hanswer =>
    rw [adopt_eq] at hok
    obtain rfl := congrArg Prod.fst hok
    rw [h.report_eq]
    exact (h.functional hanswer).reported _

/-- An access that is issued is counted, or it stays the next one. -/
theorem books_issueOne {i : Issue} (h : s.Books v) (hok : s.issueOne i = (s', .ok ())) :
    ∃ v', s'.Books v' ∧ { v with pending := s.entry i :: v.pending }.Moves v' := by
  rw [issueOne] at hok
  cases hroutable : s.routable i.packet with
  | false =>
    rw [hroutable] at hok
    obtain rfl := congrArg Prod.fst hok
    have hentry : s.entry i = (.unroutable, i.packet.ticket) := by rw [entry, hroutable]; rfl
    rw [hentry]
    refine ⟨_, ?_, .made v.report.maxAtomicLatency rfl (by decide)⟩
    rw [h.report_eq]
    exact Bridge.Books.reported h (s.report.tallied .unroutable)
  | true =>
    rw [hroutable, if_pos rfl] at hok
    have hentry : s.entry i = (Bin.of true i.mode, i.packet.ticket) := by rw [entry, hroutable]
    cases hmode : i.mode with
    | timing =>
      simp only [hmode] at hok
      exact books_issueTimed h hok (by rw [hentry, hmode]; rfl)
    | atomic =>
      simp only [hmode] at hok
      obtain ⟨latency, hbooks⟩ := books_issueAtomic h hok
      rw [hentry, hmode]
      exact ⟨_, hbooks, .made latency rfl (by decide)⟩
    | functional =>
      simp only [hmode] at hok
      rw [hentry, hmode]
      refine ⟨_, books_issueFunctional h hok, ?_⟩
      exact .made v.report.maxAtomicLatency rfl (show Bin.functional ≠ .timed by decide)

/-- The accesses that are due are issued one after another. -/
theorem leads_issueDue (n : Nat) (h : s.Books v) (hok : s.issueDue n = (s', .ok ())) : s'.Leads v := by
  induction n generalizing s v with
  | zero =>
    obtain rfl := congrArg Prod.fst hok
    exact h.leads
  | succ n ih =>
    obtain ⟨g, m, hinitiator, -⟩ := id h
    rw [issueDue, generator_of_bound hinitiator] at hok
    split at hok
    next =>
      obtain rfl := congrArg Prod.fst hok
      exact h.leads
    next heq => cases heq
    next heq =>
      cases heq
      split at hok
      next =>
        obtain rfl := congrArg Prod.fst hok
        exact h.leads
      next i g' hnext =>
        obtain ⟨rest, hpending, rfl⟩ := eq_of_nextDue? hnext
        obtain ⟨u, htaken, rfl⟩ := h.next hinitiator hpending
        split at hok
        next => cases hok
        next s₁ hone =>
          have hleft : (s.withGenerator { g with pending := rest }).Books u := htaken
          obtain ⟨v', hbooks, hmove⟩ := books_issueOne hleft hone
          exact Bridge.Leads.after (ih hbooks hok) hmove

theorem bridge_armIssue_eq (s : Simulation) :
    s.armIssue.1 = { s with agenda := s.armIssue.1.agenda, armed := s.armIssue.1.armed } := by
  rw [armIssue]
  split
  next => rfl
  next =>
    split
    next => rfl
    next =>
      dsimp only
      split <;> rfl

theorem leads_issue (h : s.Books v) (hok : s.issue = (s', .ok ())) : s'.Leads v := by
  obtain ⟨g, m, hinitiator, -⟩ := id h
  obtain ⟨t, hdue, harm⟩ := exists_due_of_issue hinitiator hok
  have hdisarmed : s.disarmed.Books v := by
    rw [disarmed]
    split <;> exact h
  have hleads := leads_issueDue _ hdisarmed hdue
  have harmed := t.bridge_armIssue_eq
  rw [harm] at harmed
  dsimp only at harmed
  rw [harmed]
  exact hleads

/-- The memory completes its oldest request, if it has one. -/
theorem leads_completeOldest (h : s.Books v) (hok : s.completeOldest = (s', .ok ())) : s'.Leads v := by
  obtain ⟨g, m, hinitiator, htarget, rfl⟩ := h
  have hmemory := memory_of_bound htarget
  rw [completeOldest, hmemory] at hok
  cases hservice : m.inService with
  | nil =>
    simp only [Memory.completeNext, hservice] at hok
    obtain rfl := congrArg Prod.fst hok
    exact Bridge.Books.leads ⟨g, m, hinitiator, rfl, rfl⟩
  | cons p rest =>
    have hperformed : (s.withMemory ({ m with inService := rest }.perform p).1).Books
        (s.bridge.account g m (s.issuedAt.map Prod.fst) s.report) := by
      refine ⟨g, _, hinitiator, rfl, ?_⟩
      rw [Memory.perform_eq]
      rfl
    simp only [completeNext_cons hservice] at hok
    cases hexpects : p.expectsResponse with
    | false =>
      simp only [hexpects] at hok
      obtain rfl := congrArg Prod.fst hok
      exact Bridge.Books.leads hperformed
    | true =>
      simp only [hexpects, if_true] at hok
      obtain ⟨hanswer, -⟩ := eq_of_finish hok
      rw [finish, adopt_eq] at hok
      obtain rfl := congrArg Prod.fst hok
      exact Bridge.Books.respond hperformed hanswer

/-- Every event that is carried out without a fault moves the account. -/
theorem leads_dispatch {event : SimEvent} (h : s.Books v) (hok : s.dispatch event = (s', .ok ())) :
    s'.Leads v := by
  cases event with
  | send d =>
    rw [dispatch, finish, adopt_eq] at hok
    obtain rfl := congrArg Prod.fst hok
    exact Bridge.Books.attempt h s.now d
  | issue => exact leads_issue h hok
  | complete => exact leads_completeOldest h hok
  | memoryRetry =>
    rw [dispatch, finish, adopt_eq] at hok
    obtain rfl := congrArg Prod.fst hok
    exact Bridge.Books.requestRetry h s.now

/-! ### Looking after the agents -/

variable {g : Generator} {m : Memory}

theorem schedules_eq (s : Simulation) (l : List Nat) (event : SimEvent) (tick : Tick) :
    l.foldl (fun s _ => s.schedule event tick) s =
      { s with agenda := (l.foldl (fun s _ => s.schedule event tick) s).agenda } := by
  induction l generalizing s with
  | nil => rfl
  | cons _ rest ih =>
    rw [List.foldl_cons, ih]
    rfl

theorem lookAfterMemory_eq (htarget : s.bridge.back.agent = some m) :
    ∃ agenda, s.lookAfterMemory = ({ s.withMemory m.rested with agenda }, .ok ()) := by
  have hmemory := memory_of_bound htarget
  rw [lookAfterMemory, hmemory]
  dsimp only [Memory.takeNewlyAccepted, Memory.takeOwedRetry]
  rw [schedules_eq]
  split
  next => exact ⟨_, rfl⟩
  next => exact ⟨_, rfl⟩

/-- A response that is looked at is counted, or its access is not known. -/
theorem books_countResponse (h : s.Books v) (p : Packet) :
    ∃ v', (s.countResponse p).Books v' ∧ ∀ later,
      { v with returning := p.id :: (later ++ v.returning) }.Moves
        { v' with returning := later ++ v'.returning } := by
  have hexpected := h.expected_eq
  cases hlookup : s.issuedAt.lookup p.id with
  | none =>
    rw [countResponse, hlookup]
    refine ⟨v, h, fun later => .ignored rfl ?_⟩
    rw [hexpected]
    intro hmem
    obtain ⟨e, he, hid⟩ := List.mem_map.1 hmem
    exact bne_iff_ne.1 (List.lookup_eq_none_iff.1 hlookup e he) hid.symm
  | some issued =>
    have hid : p.id ∈ v.expected := by
      obtain ⟨before, rest, heq, -⟩ := List.lookup_eq_some_iff.1 hlookup
      rw [hexpected, heq]
      simp
    have hids : (s.issuedAt.filter fun e => e.1 != p.id).map Prod.fst =
        v.expected.filter (· != p.id) := by
      rw [hexpected, List.filter_map]
      rfl
    have hcounted : (s.countResponse p).Books
        { v with
          expected := v.expected.filter (· != p.id)
          report := v.report.completing (flooredSub s.now issued) } := by
      rw [countResponse, hlookup, ← hids, h.report_eq]
      exact h.noted _ _
    exact ⟨_, hcounted, fun later => .counted (flooredSub s.now issued) rfl hid⟩

theorem leads_countResponses (h : s.Books v) (responses : List Packet) :
    (responses.foldl countResponse s).Leads
      { v with returning := responses.map Packet.id ++ v.returning } := by
  induction responses generalizing s v with
  | nil => exact h.leads
  | cons p rest ih =>
    obtain ⟨v', hbooks, hmove⟩ := books_countResponse h p
    exact Bridge.Leads.after (ih hbooks) (hmove (rest.map Packet.id))

/-- Looking after the agents counts the responses that have arrived. -/
theorem leads_lookAfter (h : s.Books v) (hok : s.lookAfter = (s', .ok ())) : s'.Leads v := by
  obtain ⟨g, m, hinitiator, htarget, rfl⟩ := h
  obtain ⟨agenda, hlooked⟩ := lookAfterMemory_eq htarget
  have hgenerator : { s.withMemory m.rested with agenda }.generator = .ok g :=
    generator_of_bound hinitiator
  rw [lookAfter, hlooked] at hok
  dsimp only at hok
  rw [lookAfterGenerator, hgenerator] at hok
  obtain rfl := congrArg Prod.fst hok
  have hrested : ({ s.withMemory m.rested with agenda }.withGenerator g.rested).Books
      { s.bridge.account g m (s.issuedAt.map Prod.fst) s.report with
        returning := s.bridge.front.responses.packets.map Packet.id } := ⟨_, _, rfl, rfl, rfl⟩
  have hleads := leads_countResponses hrested g.responses
  rw [← List.map_append] at hleads
  dsimp only
  split
  next => exact hleads
  next => exact hleads

/-! ### Steps and runs -/

theorem leads_of_step (h : s.Books v) (hstep : s.step = (s', .ok true)) : s'.Leads v := by
  obtain ⟨tick, event, agenda, s₁, -, hdispatch, hlooked⟩ := exists_of_step hstep
  have hpopped : { s with agenda }.Books v := h
  obtain ⟨v₁, hbooks₁, hmoves₁⟩ := leads_dispatch hpopped hdispatch
  obtain ⟨v₂, hbooks₂, hmoves₂⟩ := leads_lookAfter hbooks₁ hlooked
  exact ⟨v₂, hbooks₂, hmoves₁.trans hmoves₂⟩

/-- The account moves however many steps are made. -/
theorem Running.leads_after (h : s.Running g m) (hbooks : s.Books v) (n : Nat) :
    (s.after n).Leads v := by
  induction n generalizing s g m v with
  | zero => exact hbooks.leads
  | succ n ih =>
    rw [Simulation.after]
    rcases h.step with ⟨-, hstep⟩ | ⟨s', g', m', hstep, hrunning, -⟩
    · rw [hstep]
      exact ih h hbooks
    · rw [hstep]
      obtain ⟨v₁, hbooks₁, hmoves₁⟩ := leads_of_step hbooks hstep
      obtain ⟨v₂, hbooks₂, hmoves₂⟩ := ih hrunning hbooks₁
      exact ⟨v₂, hbooks₂, hmoves₁.trans hmoves₂⟩

end Simulation

end TimedBridge
