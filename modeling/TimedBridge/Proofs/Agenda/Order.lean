import Mathlib.Data.List.Induction
import TimedBridge.Proofs.Agenda

/-!
The order in which an agenda gives its events back. In any run of scheduling and taking, the entries that
have been taken and then those that are pending are in the order of their ticks and, within a tick, of
their numbers (`Keeps.sorted`): so each entry is taken at most once, the least first, ticks never go back,
and an event that is scheduled for the past comes next after those of the current tick
(`ordered_history`). A queue that keeps its entries in a heap and takes a greatest one each time has the
same runs (`Heaped.history_eq`, `exists_heaped`).
-/

namespace TimedBridge

namespace Agenda

variable {ε : Type}

/-! ### The order of entries -/

theorem Entry.Before.asymm {x y : Entry ε} (h : x.Before y) : ¬ y.Before x := by
  simp only [Entry.Before, UInt64.lt_iff_toNat_lt, ← UInt64.toNat_inj] at h ⊢
  omega

theorem Entry.Before.due_le {x y : Entry ε} (h : x.Before y) : x.due ≤ y.due := by
  rcases h with hlt | ⟨heq, -⟩
  · exact UInt64.le_of_lt hlt
  · exact heq ▸ UInt64.le_refl _

/-- The greater of two entries is the one that is taken before the other. -/
theorem Entry.cmp_eq_gt {x y : Entry ε} : x.cmp y = .gt ↔ x.Before y := by
  rw [Entry.cmp, Ordering.then_eq_gt, Std.compare_eq_gt, Std.compare_eq_gt, Std.compare_eq_iff_eq,
    eq_comm]
  exact Iff.rfl

/-- In a list that is in order, what comes before comes first. -/
theorem sublist_of_before {l : List (Entry ε)} (hsorted : l.Pairwise Entry.Before) {x y : Entry ε}
    (hx : x ∈ l) (hy : y ∈ l) (h : x.Before y) : [x, y].Sublist l := by
  obtain ⟨before, after, rfl⟩ := List.append_of_mem hy
  have hfirst : x ∈ before := by
    rcases List.mem_append.1 hx with hbefore | hrest
    · exact hbefore
    · rcases List.mem_cons.1 hrest with rfl | hafter
      · exact absurd h h.asymm
      · have htail := (List.pairwise_append.1 hsorted).2.1
        exact absurd ((List.pairwise_cons.1 htail).1 x hafter) h.asymm
  exact (List.singleton_sublist.2 hfirst).append (List.singleton_sublist.2 List.mem_cons_self)

/-! ### Runs -/

/-- A use of an agenda. -/
inductive Use (ε : Type) where
  | schedule (event : ε) (tick : Tick)
  | pop

/-- The entries that a run has scheduled and those that it has taken, each in the order of the run. -/
structure Log (ε : Type) where
  scheduled : List (Entry ε) := []
  taken : List (Entry ε) := []

/-- An entry has been scheduled and not yet taken. -/
def Log.Waits (log : Log ε) (e : Entry ε) : Prop := e ∈ log.scheduled ∧ e ∉ log.taken

/-- The entry that waits for the least tick and, among those, was scheduled first. -/
def Log.Next (log : Log ε) (e : Entry ε) : Prop :=
  log.Waits e ∧ ∀ x, log.Waits x → x = e ∨ e.Before x

/-- Whenever `y` has been taken, `x` was taken before it. -/
def Log.Precedes (log : Log ε) (x y : Entry ε) : Prop := y ∈ log.taken → [x, y].Sublist log.taken

/-- The entry of an event that is scheduled next. It counts for the tick it is scheduled for or, when
that has passed, for the current one, and is numbered in the order of scheduling. -/
def Log.entry (log : Log ε) (a : Agenda ε) (event : ε) (tick : Tick) : Entry ε :=
  ⟨max tick a.now, log.scheduled.length, event⟩

/-- Carries out a use and notes it. -/
def noted (log : Log ε) (a : Agenda ε) : Use ε → Log ε × Agenda ε
  | .schedule event tick =>
    ({ log with scheduled := log.scheduled ++ [log.entry a event tick] }, a.schedule event tick)
  | .pop =>
    match a.pop? with
    | none => (log, a)
    | some (_, _, a') => ({ log with taken := log.taken ++ a.pending.head?.toList }, a')

/-- The log and the agenda after a run. -/
def history (uses : List (Use ε)) : Log ε × Agenda ε :=
  uses.foldl (fun s use => noted s.1 s.2 use) ({}, {})

/-! ### What a run keeps -/

variable {log : Log ε} {a : Agenda ε}

/-- The agenda keeps what the log says: each entry that was scheduled is taken or pending, both in
order, and the clock is at the last that was taken. -/
structure Keeps (log : Log ε) (a : Agenda ε) : Prop where
  split : log.scheduled.Perm (log.taken ++ a.pending)
  sorted : (log.taken ++ a.pending).Pairwise Entry.Before
  numbered : log.scheduled.map Entry.serial = List.range a.nextSerial
  clock : a.now = (log.taken.getLast?.map Entry.due).getD 0
  passed : ∀ e ∈ log.taken, e.due ≤ a.now

theorem keeps_start : Keeps (history ([] : List (Use ε))).1 (history []).2 :=
  ⟨.refl _, .nil, rfl, rfl, fun _ h => absurd h List.not_mem_nil⟩

theorem Keeps.length_eq (h : Keeps log a) : log.scheduled.length = a.nextSerial := by
  rw [← List.length_map Entry.serial, h.numbered, List.length_range]

theorem Keeps.pending_schedule (h : Keeps log a) (event : ε) (tick : Tick) :
    (a.schedule event tick).pending = insert (log.entry a event tick) a.pending := by
  rw [Log.entry, h.length_eq]
  rfl

/-- An event is scheduled behind everything that has been taken. -/
theorem Keeps.before_entry (h : Keeps log a) (event : ε) (tick : Tick) {x : Entry ε}
    (hx : x ∈ log.taken) : x.Before (log.entry a event tick) := by
  have hdue : x.due ≤ max tick a.now := UInt64.le_trans (h.passed x hx) (by
    rw [UInt64.le_iff_toNat_le, toNat_max]
    exact Nat.le_max_right ..)
  have hserial : x.serial < log.scheduled.length := by
    have hmem : x.serial ∈ log.scheduled.map Entry.serial :=
      List.mem_map_of_mem (h.split.mem_iff.2 (List.mem_append_left _ hx))
    rw [h.numbered, List.mem_range] at hmem
    rw [h.length_eq]
    exact hmem
  rcases UInt64.lt_or_eq_of_le hdue with hlt | heq
  · exact .inl hlt
  · exact .inr ⟨heq, hserial⟩

theorem Keeps.schedule (h : Keeps log a) (event : ε) (tick : Tick) :
    Keeps (noted log a (.schedule event tick)).1 (noted log a (.schedule event tick)).2 := by
  rw [noted]
  have hpending := h.pending_schedule event tick
  have hsorted := (a.schedule event tick).sorted
  have hbefore := fun x hx => h.before_entry event tick (x := x) hx
  have hserial : (log.entry a event tick).serial = a.nextSerial := h.length_eq
  generalize log.entry a event tick = e at hpending hbefore hserial ⊢
  refine ⟨?_, ?_, ?_, h.clock, h.passed⟩
  · rw [hpending]
    calc
      (log.scheduled ++ [e]).Perm (e :: (log.taken ++ a.pending)) :=
        (List.perm_append_singleton e _).trans (h.split.cons e)
      _ |>.Perm (log.taken ++ e :: a.pending) := List.perm_middle.symm
      _ |>.Perm (log.taken ++ insert e a.pending) := (perm_insert e a.pending).symm.append_left _
  · obtain ⟨htaken, -, hcross⟩ := List.pairwise_append.1 h.sorted
    refine List.pairwise_append.2 ⟨htaken, hsorted, fun x hx y hy => ?_⟩
    rw [hpending] at hy
    rcases mem_insert.1 hy with rfl | hold
    · exact hbefore x hx
    · exact hcross x hx y hold
  · rw [List.map_append, h.numbered, List.map_singleton, hserial]
    exact List.range_succ.symm

theorem Keeps.pop (h : Keeps log a) : Keeps (noted log a .pop).1 (noted log a .pop).2 := by
  rw [noted]
  split
  next => exact h
  next tick event a' hpop =>
    obtain ⟨serial, hpending, hnow, hserial⟩ := pending_of_pop hpop
    obtain ⟨hsplit, hsorted, hnumbered, -, -⟩ := h
    have hmoved : log.taken ++ a.pending = log.taken ++ [⟨tick, serial, event⟩] ++ a'.pending := by
      rw [hpending, List.append_assoc]
      rfl
    have hhead : a.pending.head?.toList = [⟨tick, serial, event⟩] := by rw [hpending]; rfl
    rw [hmoved] at hsplit hsorted
    rw [hhead]
    refine ⟨hsplit, hsorted, hserial ▸ hnumbered, ?_, ?_⟩
    · rw [hnow, List.getLast?_concat]
      rfl
    · rw [List.forall_mem_append, List.forall_mem_singleton, hnow]
      have htaken := List.pairwise_append.1 (List.pairwise_append.1 hsorted).1
      exact ⟨fun x hx => (htaken.2.2 x hx _ List.mem_cons_self).due_le, UInt64.le_refl tick⟩

theorem history_concat (uses : List (Use ε)) (use : Use ε) :
    history (uses ++ [use]) = noted (history uses).1 (history uses).2 use := by
  rw [history, List.foldl_append]
  rfl

theorem keeps_history (uses : List (Use ε)) : Keeps (history uses).1 (history uses).2 := by
  induction uses using List.reverseRecOn with
  | nil => exact keeps_start
  | append_singleton uses use ih =>
    rw [history_concat]
    cases use with
    | schedule event tick => exact ih.schedule event tick
    | pop => exact ih.pop

/-! ### What an agenda gives back -/

/-- No entry comes twice. -/
theorem Keeps.nodup (h : Keeps log a) : (log.taken ++ a.pending).Nodup :=
  h.sorted.imp fun {x y} hxy => by
    rintro rfl
    exact hxy.asymm hxy

/-- What waits is what is pending. -/
theorem Keeps.waits_iff (h : Keeps log a) {e : Entry ε} : log.Waits e ↔ e ∈ a.pending := by
  rw [Log.Waits, h.split.mem_iff, List.mem_append]
  constructor
  · rintro ⟨htaken | hpending, hnot⟩
    · exact absurd htaken hnot
    · exact hpending
  · intro hpending
    exact ⟨.inr hpending, fun htaken => (List.nodup_append.1 h.nodup).2.2 e htaken e hpending rfl⟩

/-- The entry that is taken is the next of those that wait. -/
theorem Keeps.exists_next (h : Keeps log a) {tick : Tick} {event : ε} {a' : Agenda ε}
    (hpop : a.pop? = some (tick, event, a')) :
    ∃ e, log.Next e ∧ e.due = tick ∧ e.event = event ∧
      noted log a .pop = ({ log with taken := log.taken ++ [e] }, a') := by
  obtain ⟨serial, hpending, -⟩ := pending_of_pop hpop
  refine ⟨⟨tick, serial, event⟩, ⟨?_, fun x hx => ?_⟩, rfl, rfl, ?_⟩
  · rw [h.waits_iff, hpending]
    exact List.mem_cons_self
  · rw [h.waits_iff, hpending] at hx
    have hsorted := hpending ▸ a.sorted
    rcases List.mem_cons.1 hx with rfl | hrest
    · exact .inl rfl
    · exact .inr ((List.pairwise_cons.1 hsorted).1 x hrest)
  · rw [noted, hpop, hpending]
    rfl

/-- Of two entries the one that comes before the other is taken before it. -/
theorem Keeps.precedes (h : Keeps log a) {x y : Entry ε} (hx : x ∈ log.scheduled)
    (hbefore : x.Before y) : log.Precedes x y := by
  intro hy
  obtain ⟨htaken, -, hcross⟩ := List.pairwise_append.1 h.sorted
  rcases List.mem_append.1 (h.split.mem_iff.1 hx) with hx | hpending
  · exact sublist_of_before htaken hx hy hbefore
  · exact absurd (hcross y hy x hpending) hbefore.asymm

/-- What has been scheduled stays in the log. -/
theorem scheduled_prefix (uses more : List (Use ε)) :
    (history uses).1.scheduled <+: (history (uses ++ more)).1.scheduled := by
  induction more using List.reverseRecOn with
  | nil =>
    have hsame : uses ++ [] = uses := List.append_nil uses
    exact hsame.symm ▸ List.prefix_rfl
  | append_singleton more use ih =>
    rw [← List.append_assoc, history_concat]
    refine ih.trans ?_
    cases use with
    | schedule event tick => exact List.prefix_append ..
    | pop =>
      rw [noted]
      split <;> exact List.prefix_rfl

/-- An agenda with the log of what it has been used for. -/
structure Ordered (log : Log ε) (a : Agenda ε) : Prop where
  /-- Each event that was scheduled has been taken or is pending. -/
  split : log.scheduled.Perm (log.taken ++ a.pending)
  /-- It has been taken at most once, and then is not pending. -/
  nodup : (log.taken ++ a.pending).Nodup
  numbered : log.scheduled.map Entry.serial = List.range log.scheduled.length
  /-- What is taken next is the least of what waits. -/
  pop : match a.pop? with
    | none => ∀ e, ¬ log.Waits e
    | some (tick, event, a') => ∃ e, log.Next e ∧ e.due = tick ∧ e.event = event ∧
        noted log a .pop = ({ log with taken := log.taken ++ [e] }, a')
  peek : a.nextTick? = a.pop?.map Prod.fst
  precedes : ∀ x ∈ log.scheduled, ∀ y, x.Before y → log.Precedes x y
  ascending : (log.taken.map Entry.due).Pairwise (· ≤ ·)
  clock : a.now = (log.taken.getLast?.map Entry.due).getD 0

theorem Keeps.ordered (h : Keeps log a) : Ordered log a where
  split := h.split
  nodup := h.nodup
  numbered := h.length_eq ▸ h.numbered
  pop := by
    split
    next hpop =>
      intro e he
      rw [h.waits_iff, pending_of_pop_none hpop] at he
      exact absurd he List.not_mem_nil
    next hpop => exact h.exists_next hpop
  peek := by
    cases hpop : a.pop? with
    | none => rw [nextTick?, pending_of_pop_none hpop]; rfl
    | some popped =>
      obtain ⟨serial, hpending, -⟩ := pending_of_pop hpop
      rw [nextTick?, hpending]
      rfl
  precedes _ hx _ := h.precedes hx
  ascending :=
    List.pairwise_map.2 ((List.pairwise_append.1 h.sorted).1.imp Entry.Before.due_le)
  clock := h.clock

/-- In every run an agenda gives its events back in the order of their ticks and, within a tick, of their
scheduling. An event that is scheduled for the past comes after what waits for the current tick and
before what waits for a later one. -/
theorem ordered_history (uses : List (Use ε)) :
    Ordered (history uses).1 (history uses).2 ∧ ∀ event tick, tick ≤ (history uses).2.now →
      ∃ e, e.due = (history uses).2.now ∧ e.event = event ∧ ∀ more log a,
        history (uses ++ .schedule event tick :: more) = (log, a) →
          e ∈ log.scheduled ∧ ∀ x, (history uses).1.Waits x →
            (x.due = (history uses).2.now → log.Precedes x e) ∧
              ((history uses).2.now < x.due → log.Precedes e x) := by
  have hkeeps := keeps_history uses
  refine ⟨hkeeps.ordered, fun event tick hpast => ⟨(history uses).1.entry (history uses).2 event tick,
    max_eq_of_ge hpast, rfl, fun more log a hlater => ?_⟩⟩
  -- What the run had scheduled, with the new entry behind it, is still in the later log.
  have hstays : (history (uses ++ [.schedule event tick])).1.scheduled <+: log.scheduled := by
    have hprefix := scheduled_prefix (uses ++ [.schedule event tick]) more
    rwa [List.append_assoc, List.singleton_append, hlater] at hprefix
  rw [history_concat, noted] at hstays
  have hscheduled : (history uses).1.entry (history uses).2 event tick ∈ log.scheduled :=
    hstays.subset (List.mem_append_right _ (List.mem_singleton_self _))
  have hlog : Keeps log a := by
    have hkept := keeps_history (uses ++ .schedule event tick :: more)
    rwa [hlater] at hkept
  refine ⟨hscheduled, fun x hx => ?_⟩
  have hearlier : x.serial < (history uses).1.scheduled.length := by
    rw [hkeeps.length_eq]
    exact ((history uses).2.current x (hkeeps.waits_iff.1 hx)).2
  constructor
  · intro hnow
    exact hlog.precedes (hstays.subset (List.mem_append_left _ hx.1))
      (.inr ⟨hnow.trans (max_eq_of_ge hpast).symm, hearlier⟩)
  · intro hlate
    refine hlog.precedes hscheduled (.inl ?_)
    rwa [Log.entry, max_eq_of_ge hpast]

/-- At tick 5 an event for tick 2 comes after the one that waits and before the one for tick 9. -/
theorem ordered_overdue :
    ∃ e : Entry Nat, e.due = 5 ∧ e.event = 3 ∧
      ∃ log a, history [.schedule 0 5, .pop, .schedule 1 5, .schedule 2 9, .schedule 3 2, .pop, .pop,
          .pop] = (log, a) ∧
        log.taken = [⟨5, 0, 0⟩, ⟨5, 1, 1⟩, e, ⟨9, 2, 2⟩] ∧ log.Precedes ⟨5, 1, 1⟩ e ∧
        log.Precedes e ⟨9, 2, 2⟩ := by
  obtain ⟨e, hdue, hevent, hlater⟩ :=
    (ordered_history [.schedule 0 5, .pop, .schedule 1 5, .schedule 2 9]).2 3 2 (by decide)
  obtain ⟨hscheduled, hwaits⟩ := hlater [.pop, .pop, .pop] _ _ rfl
  have hentry : e = ⟨5, 3, 3⟩ := by
    change e ∈ [⟨5, 0, 0⟩, ⟨5, 1, 1⟩, ⟨9, 2, 2⟩, ⟨5, 3, 3⟩] at hscheduled
    simp only [List.mem_cons, List.not_mem_nil, or_false] at hscheduled
    rcases hscheduled with rfl | rfl | rfl | rfl
    all_goals first | rfl | cases hevent
  refine ⟨e, hdue, hevent, _, _, rfl, ?_, (hwaits ⟨5, 1, 1⟩ ?_).1 rfl, (hwaits ⟨9, 2, 2⟩ ?_).2 (by decide)⟩
  · rw [hentry]
    rfl
  · exact ⟨.tail _ (.head _), by simp [history, noted, pop?, schedule, insert]⟩
  · exact ⟨.tail _ (.tail _ (.head _)), by simp [history, noted, pop?, schedule, insert]⟩

/-! ### Queues with a heap -/

/-- A heap that holds the entries `heap` gives back `m`, than which none of them is greater, and keeps
`rest`. -/
structure Pops (heap : List (Entry ε)) (m : Entry ε) (rest : List (Entry ε)) : Prop where
  perm : heap.Perm (m :: rest)
  greatest : ∀ x ∈ heap, x.cmp m ≠ .gt

/-- The greatest of the entries in a heap that holds what is pending, in whatever order, is the first that
is pending. -/
theorem pops_iff {a : Agenda ε} {heap rest : List (Entry ε)} {m : Entry ε}
    (hheap : heap.Perm a.pending) :
    Pops heap m rest ↔ ∃ later, a.pending = m :: later ∧ rest.Perm later := by
  constructor
  · rintro ⟨hperm, hgreatest⟩
    have hm : m ∈ a.pending := hheap.mem_iff.1 (hperm.mem_iff.2 List.mem_cons_self)
    have hsorted := a.sorted
    cases hpending : a.pending with
    | nil =>
      rw [hpending] at hm
      exact absurd hm List.not_mem_nil
    | cons e later =>
      rw [hpending] at hm hsorted hheap
      have he : e.cmp m ≠ .gt := hgreatest e (hheap.mem_iff.2 List.mem_cons_self)
      rcases List.mem_cons.1 hm with rfl | hlater
      · exact ⟨later, rfl, (List.perm_cons m).1 (hperm.symm.trans hheap)⟩
      · have hbefore : e.Before m := (List.pairwise_cons.1 hsorted).1 m hlater
        exact absurd (Entry.cmp_eq_gt.2 hbefore) he
  · rintro ⟨later, hpending, hrest⟩
    have hsorted := a.sorted
    rw [hpending] at hheap hsorted
    refine ⟨hheap.trans (hrest.symm.cons m), fun x hx hgreater => ?_⟩
    have hbefore : x.Before m := Entry.cmp_eq_gt.1 hgreater
    rcases List.mem_cons.1 (hheap.mem_iff.1 hx) with rfl | hlater
    · exact hbefore.asymm hbefore
    · exact hbefore.asymm ((List.pairwise_cons.1 hsorted).1 x hlater)

/-- The runs of a queue that keeps its entries in a heap: the log, the clock and the heap at the end. -/
inductive Heaped : List (Use ε) → Log ε → Tick → List (Entry ε) → Prop
  | start : Heaped [] {} 0 []
  | schedule {uses : List (Use ε)} {log : Log ε} {now : Tick} {heap : List (Entry ε)} {e : Entry ε}
      (h : Heaped uses log now heap) (event : ε) (tick : Tick)
      (he : e = ⟨max tick now, log.scheduled.length, event⟩) :
      Heaped (uses ++ [.schedule event tick]) { log with scheduled := log.scheduled ++ [e] } now
        (e :: heap)
  | empty {uses : List (Use ε)} {log : Log ε} {now : Tick} (h : Heaped uses log now []) :
      Heaped (uses ++ [.pop]) log now []
  | pop {uses : List (Use ε)} {log : Log ε} {now : Tick} {heap rest : List (Entry ε)} {m : Entry ε}
      (h : Heaped uses log now heap) (hpops : Pops heap m rest) :
      Heaped (uses ++ [.pop]) { log with taken := log.taken ++ [m] } m.due rest

/-- Whichever greatest entry its heap gives back, such a queue does what an agenda does. -/
theorem Heaped.history_eq {uses : List (Use ε)} {log : Log ε} {now : Tick} {heap : List (Entry ε)}
    (h : Heaped uses log now heap) :
    (history uses).1 = log ∧ (history uses).2.now = now ∧ heap.Perm (history uses).2.pending := by
  induction h with
  | start => exact ⟨rfl, rfl, .nil⟩
  | @schedule uses log now heap e _ event tick he ih =>
    obtain ⟨rfl, rfl, hheap⟩ := ih
    have hpending := (keeps_history uses).pending_schedule event tick
    obtain rfl : e = (history uses).1.entry (history uses).2 event tick := he
    rw [history_concat, noted]
    refine ⟨rfl, rfl, ?_⟩
    rw [hpending]
    exact (hheap.cons _).trans (perm_insert _ _).symm
  | @empty uses log now _ ih =>
    obtain ⟨rfl, rfl, hheap⟩ := ih
    rw [history_concat, noted]
    cases hpop : (history uses).2.pop? with
    | none => exact ⟨rfl, rfl, hheap⟩
    | some popped =>
      obtain ⟨serial, hpending, -⟩ := pending_of_pop hpop
      rw [hpending] at hheap
      exact absurd hheap.nil_eq (List.cons_ne_nil _ _).symm
  | @pop uses log now heap rest m _ hpops ih =>
    obtain ⟨rfl, rfl, hheap⟩ := ih
    obtain ⟨later, hfirst, hrest⟩ := (pops_iff hheap).1 hpops
    rw [history_concat, noted]
    cases hpop : (history uses).2.pop? with
    | none =>
      rw [pending_of_pop_none hpop] at hfirst
      exact absurd hfirst.symm (List.cons_ne_nil _ _)
    | some popped =>
      obtain ⟨serial, hpending, hnow, -⟩ := pending_of_pop hpop
      obtain ⟨rfl, rfl⟩ := List.cons.inj (hpending.symm.trans hfirst)
      rw [hpending]
      exact ⟨rfl, hnow, hrest⟩

/-- Every run of an agenda is one of such a queue. -/
theorem exists_heaped (uses : List (Use ε)) :
    ∃ heap, Heaped uses (history uses).1 (history uses).2.now heap := by
  induction uses using List.reverseRecOn with
  | nil => exact ⟨[], .start⟩
  | append_singleton uses use ih =>
    obtain ⟨heap, h⟩ := ih
    rw [history_concat]
    cases use with
    | schedule event tick => exact ⟨_, h.schedule event tick rfl⟩
    | pop =>
      have hheap := h.history_eq.2.2
      rw [noted]
      cases hpop : (history uses).2.pop? with
      | none =>
        rw [pending_of_pop_none hpop] at hheap
        obtain rfl := hheap.eq_nil
        exact ⟨[], h.empty⟩
      | some popped =>
        obtain ⟨serial, hpending, hnow, -⟩ := pending_of_pop hpop
        have hpops := (pops_iff hheap).2 ⟨_, hpending, .refl _⟩
        dsimp only
        rw [hpending, hnow]
        exact ⟨_, h.pop hpops⟩

end Agenda

end TimedBridge
