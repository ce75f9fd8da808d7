import Mathlib.Data.Multiset.ZeroCons
import TimedBridge.Simulation

/-!
The flow of accesses through a simulation: which ones wait to be issued, to be taken by the memory, to
be completed and to come back, and which events are still to come. A step of the simulation changes the
flow in one of eight ways (`Flow.Step`). Two invariants are kept by all of them: the identities on the
way are apart and those that will be answered are the ones that wait (`Flow.Consistent`), and whatever
has to happen next has its event (`Flow.Settled`).
-/

namespace TimedBridge

/-- What tells the requests on their way apart. -/
structure Ticket where
  id : RequestId
  /-- The request will be answered. -/
  answered : Bool
  deriving DecidableEq, Repr

/-- The ticket of a packet. -/
def Packet.ticket (p : Packet) : Ticket := ⟨p.id, p.expectsResponse⟩

/-- Whether a memory with the given period refuses the offer of the given number. -/
def Memory.Refuses (refuseEvery number : UInt32) : Prop := refuseEvery ≠ 0 ∧ number % refuseEvery = 0

instance (refuseEvery number : UInt32) : Decidable (Memory.Refuses refuseEvery number) :=
  inferInstanceAs (Decidable (_ ∧ _))

/-- Where the accesses of a simulation are, and the events that are still to come. -/
structure Flow where
  now : Tick
  ranges : List AddressRange
  refuseEvery : UInt32
  /-- The number of the last offer to the memory. -/
  offered : UInt32
  /-- The accesses not yet issued. -/
  pending : List Issue
  /-- The requests that wait for the memory. -/
  queued : List Ticket
  /-- The head of them was refused. -/
  awaiting : Bool
  inService : List Ticket
  /-- The identities that wait for a response. -/
  waiting : List RequestId
  /-- The number of responses on their way back. -/
  returning : Nat
  /-- Whether the generator is owed a retry. -/
  retry : RetryState
  /-- The ticks for which an issue is scheduled. -/
  issues : Multiset Tick
  /-- The number of completions that are scheduled. -/
  completions : Nat
  /-- The number of retries by the memory that are scheduled. -/
  retries : Nat
  /-- The issue that is scheduled for the next access. -/
  armed : Option Tick

namespace Flow

/-- The access goes through the queues. -/
def Crosses (v : Flow) (i : Issue) : Prop :=
  i.mode = .timing ∧ v.ranges.any (·.covers i.packet.footprint) = true

/-- The generator gets the retry that it is owed, and will issue. -/
def wake (v : Flow) : Flow :=
  { v with
    retry := .idle
    issues := if v.retry = .pending then v.now ::ₘ v.issues else v.issues }

/-- The next access has an issue scheduled. -/
def arm (v : Flow) : Flow :=
  match v.retry, v.pending with
  | .idle, i :: _ =>
    if v.armed.any (· ≤ max i.tick v.now) then v
    else { v with armed := some (max i.tick v.now), issues := max i.tick v.now ::ₘ v.issues }
  | _, _ => v

/-- The issue that is scheduled for the next access has come due at `t`. -/
def disarm (v : Flow) (t : Tick) : Flow :=
  { v with armed := if v.armed = some t then none else v.armed }

/-! ### What can happen -/

/-- The head of the requests is offered to the memory. -/
inductive Offers (v : Flow) : Flow → Prop
  | taken {k : Ticket} {rest : List Ticket} (hqueued : v.queued = k :: rest)
      (htakes : ¬ Memory.Refuses v.refuseEvery (v.offered + 1)) :
      Offers v
        { v with
          offered := v.offered + 1
          queued := rest
          inService := v.inService ++ [k]
          completions := v.completions + 1 }.wake
  | refused {k : Ticket} {rest : List Ticket} (hqueued : v.queued = k :: rest)
      (hrefuses : Memory.Refuses v.refuseEvery (v.offered + 1)) :
      Offers v
        { v with offered := v.offered + 1, awaiting := true, retries := v.retries + 1 }

/-- The next access is issued. -/
inductive Issues (v : Flow) : Flow → Prop
  /-- It is dropped or made at once. -/
  | gone {i : Issue} {rest : List Issue} (hretry : v.retry = .idle) (hpending : v.pending = i :: rest)
      (hdue : i.tick ≤ v.now) (hmode : ¬ v.Crosses i) : Issues v { v with pending := rest }
  | admitted {i : Issue} {rest : List Issue} (hretry : v.retry = .idle)
      (hpending : v.pending = i :: rest) (hdue : i.tick ≤ v.now) (hmode : v.Crosses i) :
      Issues v
        { v with
          pending := rest
          queued := v.queued ++ [i.packet.ticket]
          waiting := if i.packet.expectsResponse then v.waiting ++ [i.packet.id] else v.waiting }
  /-- It is handed back and stays the next one. -/
  | refused {i : Issue} {rest : List Issue} (hretry : v.retry = .idle)
      (hpending : v.pending = i :: rest) (hdue : i.tick ≤ v.now) (hmode : v.Crosses i) :
      Issues v { v with pending := { i with tick := v.now } :: rest, retry := .pending }

/-- The accesses that are due are issued, until none is due or the generator is owed a retry. -/
inductive IssuesDue : Flow → Flow → Prop
  | done {v : Flow} (h : v.retry = .pending ∨ ∀ i ∈ v.pending.head?, v.now < i.tick) : IssuesDue v v
  | next {v v' v'' : Flow} (h : v.Issues v') (hrest : IssuesDue v' v'') : IssuesDue v v''

/-- What a step of the simulation does at `t`. -/
inductive Step (v : Flow) : Flow → Prop
  | returned (t : Tick) {returning : Nat} (hreturning : v.returning = returning + 1) :
      Step v { v with now := t, returning }.wake
  /-- A response leaves, and an owed retry stays owed. -/
  | returnedFull (t : Tick) {returning : Nat} (hreturning : v.returning = returning + 1) :
      Step v { v with now := t, returning }
  | offered (t : Tick) {v' : Flow} (hawaiting : v.awaiting = false)
      (hoffers : { v with now := t }.Offers v') : Step v v'
  | retried (t : Tick) {retries : Nat} {v' : Flow} (hretries : v.retries = retries + 1)
      (hoffers : { v with now := t, retries, awaiting := false }.Offers v') : Step v v'
  /-- The memory wants the head again before it may leave. -/
  | retriedEarly (t : Tick) {retries : Nat} (hretries : v.retries = retries + 1) :
      Step v { v with now := t, retries, awaiting := false }
  | answered (t : Tick) {completions : Nat} {k : Ticket} {rest : List Ticket}
      (hcompletions : v.completions = completions + 1) (hinService : v.inService = k :: rest)
      (hanswered : k.answered = true) :
      Step v
        { v with
          now := t
          completions
          inService := rest
          waiting := v.waiting.filter (· != k.id)
          returning := v.returning + 1 }
  /-- A request is completed that is not answered. -/
  | performed (t : Tick) {completions : Nat} {k : Ticket} {rest : List Ticket}
      (hcompletions : v.completions = completions + 1) (hinService : v.inService = k :: rest)
      (hanswered : k.answered = false) :
      Step v { v with now := t, completions, inService := rest }
  | issued (t : Tick) {rest : Multiset Tick} {v' : Flow} (hissues : v.issues = t ::ₘ rest)
      (hcurrent : ∀ u ∈ rest, t ≤ u)
      (hdue : IssuesDue ({ v with now := t, issues := rest }.disarm t) v') : Step v v'.arm

/-- No access is issued: the generator is told nothing, or it gets the retry that it is owed. -/
structure Tends (v v' : Flow) : Prop where
  pending : v'.pending = v.pending
  armed : v'.armed = v.armed
  told : v'.retry = v.retry ∧ v'.issues = v.issues ∨
    v.retry = .pending ∧ v'.retry = .idle ∧ v'.issues = v'.now ::ₘ v.issues

variable {v v' : Flow}

theorem tends_wake (v : Flow) : v.Tends v.wake := by
  refine ⟨rfl, rfl, ?_⟩
  dsimp only [wake]
  cases hretry : v.retry with
  | idle => exact .inl ⟨rfl, rfl⟩
  | pending => exact .inr ⟨rfl, rfl, rfl⟩

theorem Offers.tends (h : v.Offers v') : v.Tends v' := by
  cases h with
  | taken => exact ⟨rfl, rfl, (tends_wake _).told⟩
  | refused => exact ⟨rfl, rfl, .inl ⟨rfl, rfl⟩⟩

/-- An access is done with, or it was handed back. -/
theorem Issues.shorter (h : v.Issues v') :
    v'.pending.length < v.pending.length ∨ v'.retry = .pending := by
  cases h with
  | gone hretry hpending => exact .inl (hpending ▸ Nat.lt_succ_self _)
  | admitted hretry hpending => exact .inl (hpending ▸ Nat.lt_succ_self _)
  | refused => exact .inr rfl

/-- Only an access that is due is issued, and only while no retry is owed. -/
theorem Issues.retry_eq (h : v.Issues v') : v.retry = .idle := by
  cases h <;> assumption

theorem Issues.not_early (h : v.Issues v') : ¬ ∀ i ∈ v.pending.head?, v.now < i.tick := by
  have hdue : ∃ i ∈ v.pending.head?, i.tick ≤ v.now := by
    cases h with
    | gone _ hpending hdue => exact ⟨_, by rw [hpending]; rfl, hdue⟩
    | admitted _ hpending hdue => exact ⟨_, by rw [hpending]; rfl, hdue⟩
    | refused _ hpending hdue => exact ⟨_, by rw [hpending]; rfl, hdue⟩
  obtain ⟨i, hi, hdue⟩ := hdue
  exact fun hearly => UInt64.not_lt.2 hdue (hearly i hi)

/-- While a retry is owed, no issue is scheduled. -/
theorem arm_of_pending (hretry : v.retry = .pending) : v.arm = v := by
  rw [arm]
  split
  next hidle _ => exact nomatch hretry.symm.trans hidle
  next => rfl

theorem arm_of_nil (hpending : v.pending = []) : v.arm = v := by
  rw [arm]
  split
  next hcons => exact nomatch hpending.symm.trans hcons
  next => rfl

theorem arm_of_cons {i : Issue} {rest : List Issue} (hretry : v.retry = .idle)
    (hpending : v.pending = i :: rest) :
    v.arm =
      if v.armed.any (· ≤ max i.tick v.now) then v
      else { v with armed := some (max i.tick v.now), issues := max i.tick v.now ::ₘ v.issues } := by
  rw [arm]
  split
  next hcons =>
    obtain ⟨rfl, -⟩ := List.cons.inj (hpending.symm.trans hcons)
    rfl
  next hrest => exact absurd hpending (hrest _ _ hretry)

theorem now_arm (v : Flow) : v.arm.now = v.now := by
  rw [arm]
  split
  · split <;> rfl
  · rfl

theorem pending_arm (v : Flow) : v.arm.pending = v.pending := by
  rw [arm]
  split
  · split <;> rfl
  · rfl

theorem retry_arm (v : Flow) : v.arm.retry = v.retry := by
  rw [arm]
  split
  · split <;> rfl
  · rfl

/-! ### Identities -/

/-- The identities that are on their way or still to come are apart, and those that wait for a response
are the ones on their way that will be answered. -/
structure Consistent (v : Flow) : Prop where
  waiting : v.waiting = ((v.inService ++ v.queued).filter Ticket.answered).map Ticket.id
  distinct :
    ((v.inService ++ v.queued).map Ticket.id ++ v.pending.map fun i => i.packet.id).Nodup
  untagged : ∀ i ∈ v.pending, i.packet.tag = none

/-- An access that is not yet issued is not waiting for a response. -/
theorem Consistent.not_mem_waiting (h : v.Consistent) {i : Issue} (hi : i ∈ v.pending) :
    i.packet.id ∉ v.waiting := by
  intro hmem
  rw [h.waiting] at hmem
  obtain ⟨k, hk, hid⟩ := List.mem_map.1 hmem
  have hway : i.packet.id ∈ (v.inService ++ v.queued).map Ticket.id :=
    hid ▸ List.mem_map_of_mem (List.mem_filter.1 hk).1
  exact (List.nodup_append.1 h.distinct).2.2 _ hway _ (List.mem_map_of_mem hi) rfl

theorem Offers.consistent (h : v.Offers v') (hv : v.Consistent) : v'.Consistent := by
  cases h with
  | refused => exact ⟨hv.waiting, hv.distinct, hv.untagged⟩
  | @taken k rest hqueued =>
    obtain ⟨hwaiting, hdistinct, huntagged⟩ := hv
    rw [hqueued, List.append_cons] at hwaiting hdistinct
    exact ⟨hwaiting, hdistinct, huntagged⟩

theorem Issues.consistent (h : v.Issues v') (hv : v.Consistent) : v'.Consistent := by
  obtain ⟨hwaiting, hdistinct, huntagged⟩ := hv
  cases h with
  | gone hretry hpending =>
    rw [hpending] at hdistinct huntagged
    refine ⟨hwaiting, ?_, (List.forall_mem_cons.1 huntagged).2⟩
    exact hdistinct.sublist ((List.sublist_cons_self ..).append_left _)
  | @admitted i rest hretry hpending =>
    rw [hpending] at hdistinct huntagged
    refine ⟨?_, ?_, (List.forall_mem_cons.1 huntagged).2⟩
    · dsimp only
      rw [hwaiting, ← List.append_assoc, List.filter_append, List.map_append]
      cases hexpects : i.packet.expectsResponse <;> simp [Packet.ticket, hexpects]
    · simpa [Packet.ticket] using hdistinct
  | refused hretry hpending =>
    rw [hpending] at hdistinct huntagged
    exact ⟨hwaiting, hdistinct, List.forall_mem_cons.2 (List.forall_mem_cons.1 huntagged)⟩

theorem IssuesDue.consistent (h : IssuesDue v v') (hv : v.Consistent) : v'.Consistent := by
  induction h with
  | done => exact hv
  | next h _ ih => exact ih (h.consistent hv)

theorem Consistent.arm (h : v.Consistent) : v.arm.Consistent := by
  rw [Flow.arm]
  split
  · split
    · exact h
    · exact ⟨h.waiting, h.distinct, h.untagged⟩
  · exact h

/-- The identity of the request that is completed leaves those that wait. -/
theorem Consistent.answered (h : v.Consistent) {k : Ticket} {rest : List Ticket}
    (hinService : v.inService = k :: rest) (hanswered : k.answered = true) :
    v.waiting.filter (· != k.id) = ((rest ++ v.queued).filter Ticket.answered).map Ticket.id := by
  obtain ⟨hwaiting, hdistinct, -⟩ := h
  rw [hinService] at hwaiting hdistinct
  have hfresh : k.id ∉ (rest ++ v.queued).map Ticket.id := by
    have hall := (List.nodup_append.1 hdistinct).1
    exact (List.nodup_cons.1 hall).1
  rw [hwaiting, List.cons_append, List.filter_cons_of_pos hanswered, List.map_cons,
    List.filter_cons_of_neg (by simp), List.filter_eq_self]
  intro id hid
  obtain ⟨l, hl, rfl⟩ := List.mem_map.1 hid
  refine bne_iff_ne.2 fun heq => hfresh ?_
  exact heq ▸ List.mem_map_of_mem (List.mem_filter.1 hl).1

theorem Step.consistent (h : v.Step v') (hv : v.Consistent) : v'.Consistent := by
  cases h with
  | returned => exact ⟨hv.waiting, hv.distinct, hv.untagged⟩
  | returnedFull => exact ⟨hv.waiting, hv.distinct, hv.untagged⟩
  | offered t hawaiting hoffers =>
    exact hoffers.consistent ⟨hv.waiting, hv.distinct, hv.untagged⟩
  | retried t hretries hoffers =>
    exact hoffers.consistent ⟨hv.waiting, hv.distinct, hv.untagged⟩
  | retriedEarly => exact ⟨hv.waiting, hv.distinct, hv.untagged⟩
  | answered t hcompletions hinService hanswered =>
    have hdistinct := hv.distinct
    rw [hinService] at hdistinct
    exact ⟨hv.answered hinService hanswered, (List.nodup_cons.1 hdistinct).2, hv.untagged⟩
  | performed t hcompletions hinService hanswered =>
    obtain ⟨hwaiting, hdistinct, huntagged⟩ := hv
    rw [hinService] at hwaiting hdistinct
    rw [List.cons_append, List.filter_cons_of_neg (by simp [hanswered])] at hwaiting
    exact ⟨hwaiting, (List.nodup_cons.1 hdistinct).2, huntagged⟩
  | issued t hissues hcurrent hdue =>
    exact (hdue.consistent ⟨hv.waiting, hv.distinct, hv.untagged⟩).arm

/-! ### Events -/

/-- The next access will be issued: while the generator is not owed a retry, an issue is scheduled; and
the one that is noted as scheduled for the next access is. -/
structure Prompt (v : Flow) : Prop where
  progress : v.retry = .idle → v.pending ≠ [] → v.issues ≠ 0
  armed : ∀ t, v.armed = some t →
    t ∈ v.issues ∧ v.retry = .idle ∧ v.pending.head?.map Issue.tick = some t

/-- The memory's work is scheduled: a completion for each request in service, and a retry for the head
that was refused. -/
structure Served (v : Flow) : Prop where
  completions : v.completions = v.inService.length
  retries : v.retries = v.awaiting.toNat

/-- Whatever has to happen next is scheduled. -/
structure Settled (v : Flow) : Prop where
  served : v.Served
  prompt : v.Prompt

/-- When nothing of the memory's work is scheduled, it has none. -/
theorem Served.idle (h : v.Served) (hcompletions : v.completions = 0) (hretries : v.retries = 0) :
    v.inService = [] ∧ v.awaiting = false := by
  have hlength := h.completions.symm.trans hcompletions
  have hawaiting := h.retries.symm.trans hretries
  exact ⟨List.length_eq_zero_iff.1 hlength, Bool.toNat_eq_zero.1 hawaiting⟩

theorem Prompt.wake (h : v.Prompt) : v.wake.Prompt := by
  refine ⟨fun _ hpending => ?_, fun t ht => ?_⟩
  · dsimp only [Flow.wake] at hpending ⊢
    split
    next => exact Multiset.cons_ne_zero
    next hretry =>
      refine h.progress ?_ hpending
      cases hidle : v.retry with
      | idle => rfl
      | pending => exact absurd hidle hretry
  · obtain ⟨hissues, -, hhead⟩ := h.armed t ht
    refine ⟨?_, rfl, hhead⟩
    dsimp only [Flow.wake]
    split
    · exact Multiset.mem_cons_of_mem hissues
    · exact hissues

theorem IssuesDue.served (h : IssuesDue v v') (hv : v.Served) : v'.Served := by
  induction h with
  | done => exact hv
  | next h _ ih => exact ih (by cases h <;> exact ⟨hv.completions, hv.retries⟩)

theorem Served.arm (h : v.Served) : v.arm.Served := by
  rw [Flow.arm]
  split
  · split
    · exact h
    · exact ⟨h.completions, h.retries⟩
  · exact h

/-- Issuing does not concern the issue that is scheduled for the next access. -/
theorem IssuesDue.armed_eq (h : IssuesDue v v') : v'.armed = v.armed := by
  induction h with
  | done => rfl
  | next h _ ih => exact ih.trans (by cases h <;> rfl)

/-- Issuing ends when a retry is owed or nothing is due. -/
theorem IssuesDue.ends (h : IssuesDue v v') :
    v'.retry = .pending ∨ ∀ i ∈ v'.pending.head?, v'.now < i.tick := by
  induction h with
  | done h => exact h
  | next _ _ ih => exact ih

/-- When nothing is due, nothing is issued. -/
theorem IssuesDue.eq_of_early (h : IssuesDue v v') (hearly : ∀ i ∈ v.pending.head?, v.now < i.tick) :
    v' = v := by
  cases h with
  | done => rfl
  | next h => exact (h.not_early hearly).elim

/-- When nothing was due before, the next access gets its issue. -/
theorem prompt_arm (harmed : v.armed = none)
    (hends : v.retry = .pending ∨ ∀ i ∈ v.pending.head?, v.now ≤ i.tick) : v.arm.Prompt := by
  rw [Flow.arm]
  split
  next i rest hretry hpending =>
    rw [if_neg (by simp [harmed])]
    have hlater : v.now ≤ i.tick := by
      rcases hends with hends | hends
      · exact nomatch hretry.symm.trans hends
      · exact hends i (by rw [hpending]; rfl)
    refine ⟨fun _ _ => Multiset.cons_ne_zero, fun t ht => ?_⟩
    obtain rfl := Option.some.inj ht
    refine ⟨Multiset.mem_cons_self _ _, hretry, ?_⟩
    dsimp only
    rw [hpending, max_eq_of_le hlater]
    rfl
  next hrest =>
    refine ⟨fun hretry hpending => ?_, fun t ht => nomatch harmed.symm.trans ht⟩
    obtain ⟨i, rest, hcons⟩ := List.exists_cons_of_ne_nil hpending
    exact absurd hcons (hrest i rest hretry)

/-- The issue that is scheduled for the next access stays scheduled when another one comes due. -/
theorem Prompt.arm_of_armed (h : v.Prompt) {t : Tick} (ht : v.armed = some t) : v.arm = v := by
  obtain ⟨-, -, hhead⟩ := h.armed t ht
  rw [Flow.arm]
  split
  next i rest hretry hpending =>
    rw [hpending] at hhead
    obtain rfl : i.tick = t := Option.some.inj hhead
    rw [if_pos]
    rw [ht, Option.any_some, decide_eq_true_iff, UInt64.le_iff_toNat_le, toNat_max]
    exact Nat.le_max_left ..
  next => rfl

theorem disarm_eq {t : Tick} (h : v.armed ≠ some t) : v.disarm t = v := by
  rw [disarm, if_neg h]

/-- When another issue comes due at `t`, the next access is not due, so that nothing happens. -/
theorem Prompt.arm_of_later (h : v.Prompt) {t u : Tick} {rest : Multiset Tick}
    (hissues : v.issues = t ::ₘ rest) (hcurrent : ∀ w ∈ rest, t ≤ w) (hu : v.armed = some u)
    (hne : u ≠ t) (hdue : IssuesDue ({ v with now := t, issues := rest }.disarm t) v') :
    v'.arm = { v with now := t, issues := rest } ∧ { v with now := t, issues := rest }.Prompt := by
  obtain ⟨hmem, hretry, hhead⟩ := h.armed u hu
  have hrest : u ∈ rest := by
    rw [hissues] at hmem
    exact (Multiset.mem_cons.1 hmem).resolve_left hne
  have hlater : t < u := UInt64.lt_of_le_of_ne (hcurrent u hrest) (Ne.symm hne)
  have hprompt : { v with now := t, issues := rest }.Prompt := by
    refine ⟨fun _ _ hnil => ?_, fun w hw => ?_⟩
    · exact absurd (hnil ▸ hrest) (Multiset.notMem_zero u)
    · obtain rfl : u = w := Option.some.inj (hu.symm.trans hw)
      exact ⟨hrest, hretry, hhead⟩
  have hother : v.armed ≠ some t := fun heq => hne (Option.some.inj (hu.symm.trans heq))
  rw [disarm_eq (by exact hother)] at hdue
  have hsame : v' = { v with now := t, issues := rest } := by
    refine hdue.eq_of_early fun i hi => ?_
    have hi' : v.pending.head? = some i := hi
    rw [hi'] at hhead
    obtain rfl : i.tick = u := Option.some.inj hhead
    exact hlater
  exact ⟨hsame ▸ hprompt.arm_of_armed hu, hprompt⟩

theorem Prompt.issued (h : v.Prompt) {t : Tick} {rest : Multiset Tick}
    (hissues : v.issues = t ::ₘ rest) (hcurrent : ∀ u ∈ rest, t ≤ u)
    (hdue : IssuesDue ({ v with now := t, issues := rest }.disarm t) v') : v'.arm.Prompt := by
  have harmed : v'.armed = if v.armed = some t then none else v.armed := hdue.armed_eq
  have hends : v'.retry = .pending ∨ ∀ i ∈ v'.pending.head?, v'.now ≤ i.tick :=
    hdue.ends.imp_right fun hearly i hi => UInt64.le_of_lt (hearly i hi)
  split at harmed
  next => exact prompt_arm harmed hends
  next hother =>
    cases hu : v.armed with
    | none => exact prompt_arm (harmed.trans hu) hends
    | some u =>
      have hne : u ≠ t := fun heq => hother (heq ▸ hu)
      obtain ⟨harm, hprompt⟩ := h.arm_of_later hissues hcurrent hu hne hdue
      exact harm ▸ hprompt

theorem Offers.settled (h : v.Offers v') (hcompletions : v.completions = v.inService.length)
    (hretries : v.retries = 0) (hawaiting : v.awaiting = false) (hprompt : v.Prompt) :
    v'.Settled := by
  cases h with
  | taken =>
    refine ⟨⟨?_, ?_⟩, Prompt.wake ⟨hprompt.progress, hprompt.armed⟩⟩
    · dsimp only [wake]
      rw [hcompletions, List.length_append]
      rfl
    · dsimp only [wake]
      rw [hretries, hawaiting]
      rfl
  | refused => exact ⟨⟨hcompletions, congrArg (· + 1) hretries⟩, hprompt.progress, hprompt.armed⟩

theorem Step.settled (h : v.Step v') (hv : v.Settled) : v'.Settled := by
  obtain ⟨⟨hcompletions, hretries⟩, hprogress, harmed⟩ := hv
  have hle := v.awaiting.toNat_le
  cases h with
  | returned => exact ⟨⟨hcompletions, hretries⟩, Prompt.wake ⟨hprogress, harmed⟩⟩
  | returnedFull => exact ⟨⟨hcompletions, hretries⟩, hprogress, harmed⟩
  | offered t hawaiting hoffers =>
    rw [hawaiting] at hretries
    exact hoffers.settled hcompletions hretries hawaiting ⟨hprogress, harmed⟩
  | @retried t retries v' hretried hoffers =>
    exact hoffers.settled hcompletions (show retries = 0 by omega) rfl ⟨hprogress, harmed⟩
  | @retriedEarly t retries hretried =>
    exact ⟨⟨hcompletions, show retries = 0 by omega⟩, hprogress, harmed⟩
  | answered t hcount hinService =>
    rw [hinService, hcount] at hcompletions
    exact ⟨⟨Nat.succ.inj hcompletions, hretries⟩, hprogress, harmed⟩
  | performed t hcount hinService =>
    rw [hinService, hcount] at hcompletions
    exact ⟨⟨Nat.succ.inj hcompletions, hretries⟩, hprogress, harmed⟩
  | issued t hissues hcurrent hdue =>
    refine ⟨(hdue.served ⟨hcompletions, hretries⟩).arm, ?_⟩
    exact Prompt.issued ⟨hprogress, harmed⟩ hissues hcurrent hdue

end Flow

end TimedBridge
