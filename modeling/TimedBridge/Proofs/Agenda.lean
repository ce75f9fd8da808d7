import Mathlib.Data.Multiset.ZeroCons
import TimedBridge.Agenda

/-!
What an agenda holds of each event. The ticks for which an event is scheduled say how many of it are
still to come and when, whatever their order among the other events (`ticks_schedule`, `ticks_of_pop`);
what is scheduled last for the latest of them comes last (`times_schedule_of_le`, `times_of_pop`).
An agenda of other names for the events runs alike (`schedule_map`, `pop?_map`).
-/

namespace TimedBridge

namespace Agenda

variable {ε ε' : Type} {a a' : Agenda ε} {tick : Tick} {event : ε}

/-- The next event is the first that is pending; the clock moves to its tick. -/
theorem pending_of_pop (h : a.pop? = some (tick, event, a')) :
    ∃ serial, a.pending = ⟨tick, serial, event⟩ :: a'.pending ∧ a'.now = tick ∧
      a'.nextSerial = a.nextSerial := by
  rw [pop?] at h
  split at h
  next => contradiction
  next e rest hpending =>
    obtain ⟨rfl, rfl, rfl⟩ : e.due = tick ∧ e.event = event ∧ _ = a' := by
      simpa only [Option.some.injEq, Prod.mk.injEq] using h
    exact ⟨e.serial, hpending, rfl, rfl⟩

/-- When there is no next event, none is pending. -/
theorem pending_of_pop_none (h : a.pop? = none) : a.pending = [] := by
  rw [pop?] at h
  split at h
  next hpending => exact hpending
  next => contradiction

/-! ### The ticks of an event -/

section Ticks

variable [DecidableEq ε]

/-- The ticks for which an event is scheduled. -/
def ticks (a : Agenda ε) (event : ε) : Multiset Tick :=
  ↑((a.pending.filter (·.event = event)).map Entry.due)

theorem ticks_schedule (a : Agenda ε) (event : ε) (tick : Tick) (other : ε) :
    (a.schedule event tick).ticks other =
      if event = other then max tick a.now ::ₘ a.ticks other else a.ticks other := by
  have hperm := ((perm_insert ⟨max tick a.now, a.nextSerial, event⟩ a.pending).filter
    (·.event = other)).map Entry.due
  rw [ticks, ticks, schedule, Multiset.coe_eq_coe.2 hperm]
  split
  next heq => rw [List.filter_cons_of_pos (by simpa using heq)]; rfl
  next hne => rw [List.filter_cons_of_neg (by simpa using hne)]

theorem ticks_of_pop (h : a.pop? = some (tick, event, a')) (other : ε) :
    a.ticks other = if event = other then tick ::ₘ a'.ticks other else a'.ticks other := by
  obtain ⟨serial, hpending, -⟩ := pending_of_pop h
  rw [ticks, hpending]
  split
  next heq => rw [List.filter_cons_of_pos (by simpa using heq)]; rfl
  next hne => rw [List.filter_cons_of_neg (by simpa using hne)]; rfl

theorem ticks_of_pop_none (h : a.pop? = none) (event : ε) : a.ticks event = 0 := by
  rw [ticks, pending_of_pop_none h]
  rfl

theorem le_of_mem_ticks (h : tick ∈ a.ticks event) : a.now ≤ tick := by
  obtain ⟨e, he, rfl⟩ := List.mem_map.1 (Multiset.mem_coe.1 h)
  exact (a.current e (List.mem_filter.1 he).1).1

end Ticks

/-! ### The ticks of an event in order -/

/-- An entry for which nothing is looked does not show. -/
theorem filter_insert_of_neg {P : Entry ε → Bool} {e : Entry ε} (he : P e = false)
    (l : List (Entry ε)) : (insert e l).filter P = l.filter P := by
  induction l with
  | nil => simp [insert, he]
  | cons x rest ih =>
    rw [insert]
    split
    next => rw [List.filter_cons_of_neg (by simp [he])]
    next => rw [List.filter_cons, List.filter_cons, ih]

/-- An entry that is due no earlier than those that are looked for comes after them. -/
theorem filter_insert_of_le {P : Entry ε → Bool} {e : Entry ε} (he : P e = true)
    {l : List (Entry ε)} (hsorted : l.Pairwise Entry.Before)
    (hdue : ∀ x ∈ l.filter P, x.due ≤ e.due) : (insert e l).filter P = l.filter P ++ [e] := by
  induction l with
  | nil => simp [insert, he]
  | cons x rest ih =>
    obtain ⟨hfirst, hrest⟩ := List.pairwise_cons.1 hsorted
    rw [insert]
    split
    next hlt =>
      have hnone : (x :: rest).filter P = [] := by
        refine List.eq_nil_iff_forall_not_mem.2 fun y hy => ?_
        have hlater : x.due ≤ y.due := by
          rcases List.mem_cons.1 (List.mem_filter.1 hy).1 with rfl | hy
          · exact UInt64.le_refl _
          · rcases hfirst y hy with h | ⟨h, -⟩
            · exact UInt64.le_of_lt h
            · exact h ▸ UInt64.le_refl _
        have hle := hdue y hy
        simp only [UInt64.lt_iff_toNat_lt, UInt64.le_iff_toNat_le] at hlt hlater hle
        omega
      rw [List.filter_cons_of_pos he, hnone]
      rfl
    next =>
      have htail := ih hrest fun y hy => hdue y (by
        rw [List.filter_cons]
        split
        · exact .tail x hy
        · exact hy)
      rw [List.filter_cons, List.filter_cons, htail]
      split <;> rfl

section Times

variable [DecidableEq ε]

/-- The ticks for which an event is scheduled, in order. -/
def times (a : Agenda ε) (event : ε) : List Tick :=
  (a.pending.filter (·.event = event)).map Entry.due

theorem times_schedule_of_ne {other : ε} (h : event ≠ other) (a : Agenda ε) (tick : Tick) :
    (a.schedule event tick).times other = a.times other := by
  rw [times, schedule, filter_insert_of_neg (by simpa using h), times]

/-- An event that is scheduled no earlier than others of its kind comes after them. -/
theorem times_schedule_of_le (hdue : ∀ t ∈ a.times event, t ≤ tick) (hnow : a.now ≤ tick) :
    (a.schedule event tick).times event = a.times event ++ [tick] := by
  have hmax : max tick a.now = tick := max_eq_of_le hnow
  have hlast : ∀ x ∈ a.pending.filter (·.event = event), x.due ≤ max tick a.now := by
    intro x hx
    rw [hmax]
    exact hdue _ (List.mem_map_of_mem hx)
  rw [times, schedule, filter_insert_of_le (by simp) a.sorted hlast, List.map_append, hmax]
  rfl

theorem times_of_pop (h : a.pop? = some (tick, event, a')) (other : ε) :
    a.times other = if event = other then tick :: a'.times other else a'.times other := by
  obtain ⟨serial, hpending, -⟩ := pending_of_pop h
  rw [times, hpending, List.filter_cons]
  split
  next heq => rw [if_pos (by simpa using heq)]; rfl
  next hne => rw [if_neg (by simpa using hne)]; rfl

end Times

/-! ### Other names for the events -/

/-- The entry with its event under another name. -/
def Entry.map (f : ε → ε') (e : Entry ε) : Entry ε' := ⟨e.due, e.serial, f e.event⟩

/-- The agenda with its events under other names. -/
def map (f : ε → ε') (a : Agenda ε) : Agenda ε' where
  now := a.now
  nextSerial := a.nextSerial
  pending := a.pending.map (Entry.map f)
  sorted := List.pairwise_map.2 a.sorted
  current e he := by
    obtain ⟨x, hx, rfl⟩ := List.mem_map.1 he
    exact a.current x hx

theorem map_insert (f : ε → ε') (e : Entry ε) (l : List (Entry ε)) :
    (insert e l).map (Entry.map f) = insert (e.map f) (l.map (Entry.map f)) := by
  induction l with
  | nil => rfl
  | cons x rest ih =>
    rw [List.map_cons, insert, insert]
    change _ = if e.due < x.due then _ else _
    split
    · rfl
    · rw [List.map_cons, ih]

theorem schedule_map (f : ε → ε') (a : Agenda ε) (event : ε) (tick : Tick) :
    (a.map f).schedule (f event) tick = (a.schedule event tick).map f := by
  simp only [schedule, map, map_insert]
  rfl

theorem pop?_map (f : ε → ε') (h : a.pop? = some (tick, event, a')) :
    (a.map f).pop? = some (tick, f event, a'.map f) := by
  obtain ⟨serial, hpending, hnow, hserial⟩ := pending_of_pop h
  rw [pop?]
  split
  next hnil => simp [map, hpending] at hnil
  next e rest hcons =>
    obtain ⟨rfl, rfl⟩ : Entry.map f ⟨tick, serial, event⟩ = e ∧ _ = rest :=
      List.cons.inj ((congrArg (List.map (Entry.map f)) hpending).symm.trans hcons)
    simp only [map, Entry.map, hnow, hserial]

end Agenda

end TimedBridge
