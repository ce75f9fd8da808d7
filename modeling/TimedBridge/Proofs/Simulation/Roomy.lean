import TimedBridge.Proofs.Simulation.Bookkeeping
import TimedBridge.Proofs.Simulation.Kept
import TimedBridge.Proofs.Simulation.Occasions

/-!
Simulations with room for all accesses that go through the queues. What is on the way and what is still to
come never is more than the queues hold (`Flow.Fits`), so that no access is handed back
(`Running.retry_idle_after`). The report counts the accesses that are handed back
(`Running.refused_after`).
-/

namespace TimedBridge

/-! ### What is on the way and to come -/

namespace Flow

instance (v : Flow) (i : Issue) : Decidable (v.Crosses i) := inferInstanceAs (Decidable (_ ∧ _))

/-- The number of accesses to come that go through the queues. -/
def crossing (v : Flow) : Nat := v.pending.countP fun i => v.Crosses i

/-- Two queues of `count` places each have room for what is on the way and to come, and a retry is owed
only for an access that goes through them. -/
structure Fits (v : Flow) (count : Nat) : Prop where
  requests : v.queued.length + v.crossing ≤ count
  responses : v.waiting.length + v.returning + v.crossing ≤ count
  owed : v.retry = .pending → 0 < v.crossing

variable {v v' : Flow} {count : Nat}

theorem Fits.wake (h : v.Fits count) : v.wake.Fits count :=
  ⟨h.requests, h.responses, nofun⟩

theorem Offers.fits (h : v.Offers v') (hv : v.Fits count) : v'.Fits count := by
  obtain ⟨hrequests, hresponses, howed⟩ := hv
  cases h with
  | taken hqueued =>
    rw [hqueued, List.length_cons] at hrequests
    refine Fits.wake ⟨?_, hresponses, howed⟩
    exact Nat.le_trans (Nat.add_le_add_right (Nat.le_succ _) _) hrequests
  | refused => exact ⟨hrequests, hresponses, howed⟩

theorem Issues.fits (h : v.Issues v') (hv : v.Fits count) : v'.Fits count := by
  obtain ⟨hrequests, hresponses, -⟩ := hv
  cases h with
  | @gone i rest hretry hpending hdue hmode =>
    have hsame : v.crossing = { v with pending := rest }.crossing := by
      rw [crossing, hpending]
      exact List.countP_cons_of_neg (by simpa using hmode)
    rw [hsame] at hrequests hresponses
    exact ⟨hrequests, hresponses, fun howed => nomatch hretry.symm.trans howed⟩
  | @admitted i rest hretry hpending hdue hmode =>
    have hless : v.crossing = { v with pending := rest }.crossing + 1 := by
      rw [crossing, hpending]
      exact List.countP_cons_of_pos (by simpa using hmode)
    rw [hless] at hrequests hresponses
    refine ⟨?_, ?_, fun howed => nomatch hretry.symm.trans howed⟩
    · change (v.queued ++ [i.packet.ticket]).length + { v with pending := rest }.crossing ≤ count
      rw [List.length_append, List.length_singleton]
      omega
    · change (if i.packet.expectsResponse then v.waiting ++ [i.packet.id] else v.waiting).length +
        v.returning + { v with pending := rest }.crossing ≤ count
      split
      · rw [List.length_append, List.length_singleton]
        omega
      · omega
  | @refused i rest hretry hpending hdue hmode =>
    have hsame : v.crossing = { v with pending := { i with tick := v.now } :: rest }.crossing := by
      rw [crossing, crossing, hpending, List.countP_cons, List.countP_cons]
      rfl
    rw [hsame] at hrequests hresponses
    refine ⟨hrequests, hresponses, fun _ => List.countP_pos_iff.2 ?_⟩
    exact ⟨_, List.mem_cons_self, decide_eq_true (by exact hmode)⟩

theorem IssuesDue.fits (h : IssuesDue v v') (hv : v.Fits count) : v'.Fits count := by
  induction h with
  | done => exact hv
  | next h _ ih => exact ih (h.fits hv)

theorem Fits.arm (h : v.Fits count) : v.arm.Fits count := by
  rw [Flow.arm]
  split
  · split
    · exact h
    · exact ⟨h.requests, h.responses, h.owed⟩
  · exact h

/-- A request that is completed no longer waits, so that its response has room. -/
theorem Consistent.length_filter_lt (h : v.Consistent) {k : Ticket} {rest : List Ticket}
    (hinService : v.inService = k :: rest) (hanswered : k.answered = true) :
    (v.waiting.filter (· != k.id)).length < v.waiting.length := by
  refine List.length_filter_lt_length_iff_exists.2 ⟨k.id, ?_, by simp⟩
  rw [h.waiting, hinService]
  exact List.mem_map_of_mem (List.mem_filter.2 ⟨List.mem_cons_self, hanswered⟩)

theorem Step.fits (h : v.Step v') (hconsistent : v.Consistent) (hv : v.Fits count) : v'.Fits count := by
  obtain ⟨hrequests, hresponses, howed⟩ := hv
  cases h with
  | @returned t returning hreturning =>
    refine Fits.wake ⟨hrequests, ?_, howed⟩
    change v.waiting.length + returning + v.crossing ≤ count
    omega
  | @returnedFull t returning hreturning =>
    refine ⟨hrequests, ?_, howed⟩
    change v.waiting.length + returning + v.crossing ≤ count
    omega
  | offered t hawaiting hoffers => exact hoffers.fits ⟨hrequests, hresponses, howed⟩
  | retried t hretries hoffers => exact hoffers.fits ⟨hrequests, hresponses, howed⟩
  | retriedEarly => exact ⟨hrequests, hresponses, howed⟩
  | @answered t completions k rest hcompletions hinService hanswered =>
    have hless := hconsistent.length_filter_lt hinService hanswered
    refine ⟨hrequests, ?_, howed⟩
    change (v.waiting.filter (· != k.id)).length + (v.returning + 1) + v.crossing ≤ count
    omega
  | performed => exact ⟨hrequests, hresponses, howed⟩
  | issued t hissues hcurrent hdue => exact (hdue.fits ⟨hrequests, hresponses, howed⟩).arm

end Flow

namespace Simulation

variable {s s' : Simulation} {g : Generator} {m : Memory} {count : Nat}

/-! ### Room -/

/-- Both queues have at least `count` places. -/
def Roomy (count : Nat) (b : Bridge Generator Memory) : Prop :=
  count ≤ b.ledger.requestSlots ∧ count ≤ b.ledger.responseSlots

/-- No call changes the number of places. -/
theorem roomy_perform (b : Bridge Generator Memory) (now : Tick)
    (operation : Operation Generator Memory) (h : Roomy count b) :
    Roomy count (b.perform now operation).state := by
  obtain ⟨hrequests, hresponses⟩ := (b.posts_turn now operation).slots_eq
  rw [Roomy, hrequests, hresponses]
  exact h

/-- With room for everything, no retry is owed. -/
theorem Running.retry_idle (h : s.Running g m) (hfits : (s.flow g m).Fits count)
    (hroomy : Roomy count s.bridge) : s.bridge.front.retry = .idle := by
  cases hretry : s.bridge.front.retry with
  | idle => rfl
  | pending =>
    have hcrossing := hfits.owed hretry
    have hrequests : s.bridge.ledger.requests + (s.flow g m).crossing ≤ count := by
      have hlength : (s.flow g m).queued.length = s.bridge.ledger.requests := by
        simp [flow, TransmitQueue.packets, Bridge.ledger, TransmitQueue.size]
      exact hlength ▸ hfits.requests
    have hresponses : s.bridge.ledger.reserved + (s.flow g m).crossing ≤ count := by
      have hlength : (s.flow g m).waiting.length = s.bridge.ledger.waiting := List.length_map _
      have hbalance := h.driven.sound.balanced.balance
      have hfit := hfits.responses
      rw [hlength] at hfit
      exact hbalance ▸ hfit
    obtain ⟨hrequestSlots, hresponseSlots⟩ := hroomy
    rcases h.driven.sound.justified hretry with hfull | hfull <;> omega

/-- With room for everything, no retry is ever owed. -/
theorem Running.retry_idle_after (h : s.Running g m) (hfits : (s.flow g m).Fits count)
    (hroomy : Roomy count s.bridge) (n : Nat) : (s.after n).bridge.front.retry = .idle := by
  obtain ⟨g', m', hrunning, hfits'⟩ :=
    h.flow_after (fun _ _ hconsistent hstep hv => hstep.fits hconsistent hv) hfits n
  exact hrunning.retry_idle hfits' (keeps_after roomy_perform hroomy n)

/-- When no retry is ever owed, no access has been handed back. -/
theorem Running.accepted_of_idle (h : s.Running g m)
    (hidle : ∀ n, (s.after n).bridge.front.retry = .idle) (n : Nat) (id : RequestId) (tick : Tick) :
    .refused id tick ∉ s.occasionsIn n := by
  induction n generalizing s g m with
  | zero => exact List.not_mem_nil
  | succ n ih =>
    have hnext := fun k => hidle (k + 1)
    rw [occasionsIn, List.mem_append, not_or]
    rcases h.step with ⟨hpop, hstep⟩ | ⟨s', g', m', hstep, hrunning, -⟩
    · have hnone : s.occasions = [] := by rw [occasions, hpop]
      rw [hnone, hstep]
      exact ⟨List.not_mem_nil, ih h hidle⟩
    · simp only [Simulation.after, hstep] at hnext
      rw [hstep]
      exact ⟨(h.tells hstep hrunning.joins).refused_notMem (hnext 0) id tick, ih hrunning hnext⟩

end Simulation

/-! ### What the report counts -/

/-- An access is handed back. -/
def Occasion.handsBack : Occasion → Bool
  | refused .. => true
  | _ => false

theorem Occasion.handsBack_taken (id : RequestId) (tick : Tick) (retry : RetryState)
    (log : List Occasion) :
    (taken id tick retry :: log).countP handsBack = retry.owed + log.countP handsBack := by
  cases retry with
  | idle => exact (List.countP_cons_of_neg Bool.false_ne_true).trans (Nat.zero_add _).symm
  | pending => exact (List.countP_cons_of_pos rfl).trans (Nat.add_comm _ _)

/-- While no retry is owed, only handing an access back counts as a refusal, and it leaves one owed. -/
theorem Account.Moves.refused_of_idle {v v' : Account} (h : v.Moves v') (hretry : v.retry = .idle) :
    v'.report.refused = v.report.refused + v'.retry.owed := by
  cases h with
  | @made bin => cases bin <;> exact congrArg (_ + RetryState.owed ·) hretry.symm
  | refused => rfl
  | retried howed => exact nomatch hretry.symm.trans howed
  | _ => exact congrArg (v.report.refused + RetryState.owed ·) hretry.symm

namespace Simulation

variable {s s' : Simulation} {g : Generator} {m : Memory} {v : Account}

theorem Books.retry_eq (h : s.Books v) : v.retry = s.bridge.front.retry := by
  obtain ⟨g, m, -, -, rfl⟩ := h
  rfl

theorem refused_issueDue (n : Nat) (h : s.Books v) (hok : s.issueDue n = (s', .ok ())) :
    s'.report.refused = s.report.refused + (s.takenDue n).countP Occasion.handsBack := by
  induction n generalizing s v with
  | zero =>
    obtain rfl := congrArg Prod.fst hok
    rfl
  | succ n ih =>
    obtain ⟨g, m, hinitiator, -⟩ := id h
    rw [issueDue, generator_of_bound hinitiator] at hok
    rw [takenDue, generator_of_bound hinitiator]
    cases hretry : s.bridge.front.retry with
    | pending =>
      rw [hretry] at hok
      obtain rfl := congrArg Prod.fst hok
      rfl
    | idle =>
    rw [hretry] at hok
    dsimp only at hok ⊢
    cases hnext : g.nextDue? s.now with
    | none =>
      rw [hnext] at hok
      obtain rfl := congrArg Prod.fst hok
      rfl
    | some next =>
    obtain ⟨i, g'⟩ := next
    obtain ⟨rest, hpending, rfl⟩ := eq_of_nextDue? hnext
    obtain ⟨u, htaken, rfl⟩ := h.next hinitiator hpending
    rw [hnext] at hok
    dsimp only at hok ⊢
    rcases hone : (s.withGenerator { g with pending := rest }).issueOne i with ⟨t, fault | ⟨⟩⟩
    · rw [hone] at hok
      cases hok
    · rw [hone] at hok
      have hleft : (s.withGenerator { g with pending := rest }).Books u := htaken
      obtain ⟨v', hbooks, hmove⟩ := books_issueOne hleft hone
      have hcount := hmove.refused_of_idle (hleft.retry_eq.trans hretry)
      rw [ih hbooks hok, Occasion.handsBack_taken, ← Nat.add_assoc]
      congr 1
      rw [← hbooks.retry_eq, ← hbooks.report_eq, hcount]
      exact congrArg (·.refused + v'.retry.owed) hleft.report_eq

theorem refused_issue (h : s.Books v) (hinitiator : s.bridge.front.agent = some g)
    (hok : s.issue = (s', .ok ())) :
    s'.report.refused =
      s.report.refused + (s.disarmed.takenDue g.remaining).countP Occasion.handsBack := by
  obtain ⟨t, hdue, harm⟩ := exists_due_of_issue hinitiator hok
  have hdisarmed : s.disarmed.Books v ∧ s.disarmed.report = s.report := by
    rw [disarmed]
    split <;> exact ⟨h, rfl⟩
  have harmed : s'.report = t.report := by
    have hsame := congrArg Simulation.report t.bridge_armIssue_eq
    rwa [harm] at hsame
  rw [harmed, ← hdisarmed.2]
  exact refused_issueDue _ hdisarmed.1 hdue

/-- An event that issues nothing hands nothing back. -/
theorem report_dispatch (s : Simulation) {event : SimEvent} (hevent : event ≠ .issue) :
    (s.dispatch event).1.report = s.report := by
  cases event with
  | send d => rw [dispatch, finish, adopt_eq]
  | issue => exact absurd rfl hevent
  | complete =>
    rw [dispatch, completeOldest]
    split
    next => rfl
    next =>
      split
      next => rfl
      next =>
        dsimp only
        rw [finish, adopt_eq]
        rfl
  | memoryRetry => rw [dispatch, finish, adopt_eq]

theorem handsBack_notifications (s : Simulation) : s.notifications.countP Occasion.handsBack = 0 := by
  rw [notifications]
  split
  next =>
    split <;> rfl
  next => rfl

/-- Looking after the agents hands nothing back. -/
theorem refused_lookAfter (hinitiator : s.bridge.front.agent = some g)
    (htarget : s.bridge.back.agent = some m) (hok : s.lookAfter = (s', .ok ())) :
    s'.report.refused = s.report.refused := by
  have hcounted (t : Simulation) (responses : List Packet) :
      (responses.foldl countResponse t).report.refused = t.report.refused := by
    induction responses generalizing t with
    | nil => rfl
    | cons p rest ih =>
      rw [List.foldl_cons, ih, countResponse]
      split <;> rfl
  obtain ⟨agenda, hlooked⟩ := lookAfterMemory_eq htarget
  have hgenerator : { s.withMemory m.rested with agenda }.generator = .ok g :=
    generator_of_bound hinitiator
  rw [lookAfter, hlooked] at hok
  dsimp only at hok
  rw [lookAfterGenerator_of_bound hgenerator rfl] at hok
  obtain rfl := congrArg Prod.fst hok
  dsimp only
  split <;> exact hcounted _ _

/-- A step counts the accesses that it hands back. -/
theorem Running.refused_step (h : s.Running g m) (hbooks : s.Books v) (hstep : s.step = (s', .ok true)) :
    s'.report.refused = s.report.refused + s.occasions.countP Occasion.handsBack := by
  obtain ⟨tick, event, agenda, s₁, hpop, hdispatch, hlooked⟩ := exists_of_step hstep
  obtain ⟨s₁', g₁, m₁, hdispatch', -, hjoins₁, -⟩ := h.carried hpop
  obtain rfl := congrArg Prod.fst (hdispatch.symm.trans hdispatch')
  rw [refused_lookAfter hjoins₁.initiator hjoins₁.target hlooked, occasions, hpop,
    generator_of_bound h.joins.initiator]
  by_cases hevent : event = .issue
  · subst hevent
    exact refused_issue (s := { s with agenda }) hbooks h.joins.initiator hdispatch
  · have hreport := { s with agenda }.report_dispatch hevent
    rw [hdispatch] at hreport
    have hnone := handsBack_notifications ({ s with agenda }.dispatch event).1
    cases event with
    | issue => exact absurd rfl hevent
    | _ =>
      dsimp only
      rw [hnone, hreport]
      rfl

/-- The report counts the accesses that are handed back, however many steps are made. -/
theorem Running.refused_after (h : s.Running g m) (hbooks : s.Books v) (n : Nat) :
    (s.after n).report.refused =
      s.report.refused + (s.occasionsIn n).countP Occasion.handsBack := by
  induction n generalizing s g m v with
  | zero => rfl
  | succ n ih =>
    rw [Simulation.after, occasionsIn, List.countP_append]
    rcases h.step with ⟨hpop, hstep⟩ | ⟨s', g', m', hstep, hrunning, -⟩
    · have hnone : s.occasions = [] := by rw [occasions, hpop]
      rw [hstep, hnone, ih h hbooks, List.countP_nil, Nat.zero_add]
    · have hcount := h.refused_step hbooks hstep
      obtain ⟨v₁, hbooks₁, -⟩ := leads_of_step hbooks hstep
      rw [hstep, ih hrunning hbooks₁, hcount, Nat.add_assoc]

/-- When no access has been handed back, none is counted. -/
theorem Running.refused_of_accepted (h : s.Running g m) (hbooks : s.Books v) (n : Nat)
    (haccepted : ∀ id tick, .refused id tick ∉ s.occasionsIn n) :
    (s.after n).report.refused = s.report.refused := by
  have hnone : (s.occasionsIn n).countP Occasion.handsBack = 0 := by
    refine List.countP_eq_zero.2 fun occasion hmem => ?_
    cases occasion with
    | refused id tick => exact absurd hmem (haccepted id tick)
    | _ => exact Bool.false_ne_true
  rw [h.refused_after hbooks n, hnone, Nat.add_zero]

end Simulation

end TimedBridge
