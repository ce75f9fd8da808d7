import TimedBridge.Word

/-!
The agenda of a discrete-event simulation: the events that are due, by tick and, within a tick, in
the order in which they were scheduled. The clock of the agenda is the tick of the event that was
taken last; nothing is ever scheduled before it.
-/

namespace TimedBridge

/-- An event, the tick at which it is due, and its number in the order of scheduling. -/
structure Agenda.Entry (ε : Type) where
  due : Tick
  serial : Nat
  event : ε
  deriving Repr

/-- One entry is taken before another: it is due earlier, or at the same tick and was scheduled
earlier. -/
def Agenda.Entry.Before {ε : Type} (a b : Agenda.Entry ε) : Prop :=
  a.due < b.due ∨ a.due = b.due ∧ a.serial < b.serial

/-- The order in which a heap keeps entries. It gives back the greatest first, so both the ticks and, at
one tick, the numbers are compared the other way round. -/
def Agenda.Entry.cmp {ε : Type} (a b : Agenda.Entry ε) : Ordering :=
  (compare b.due a.due).then (compare b.serial a.serial)

/-- The events that are still to come, the next one first. -/
structure Agenda (ε : Type) where
  now : Tick := 0
  nextSerial : Nat := 0
  pending : List (Agenda.Entry ε) := []
  sorted : pending.Pairwise Agenda.Entry.Before := by simp
  current : ∀ e ∈ pending, now ≤ e.due ∧ e.serial < nextSerial := by simp

namespace Agenda

variable {ε : Type}

/-- Puts an entry behind all that are due no later than it. -/
def insert (e : Entry ε) : List (Entry ε) → List (Entry ε)
  | [] => [e]
  | x :: rest => if e.due < x.due then e :: x :: rest else x :: insert e rest

theorem perm_insert (e : Entry ε) (l : List (Entry ε)) : (insert e l).Perm (e :: l) := by
  induction l with
  | nil => exact .refl _
  | cons x rest ih =>
    rw [insert]
    split
    · exact .refl _
    · exact (ih.cons x).trans (.swap e x rest)

theorem mem_insert {x e : Entry ε} {l : List (Entry ε)} : x ∈ insert e l ↔ x = e ∨ x ∈ l := by
  rw [(perm_insert e l).mem_iff, List.mem_cons]

/-- The entry that was scheduled last finds its place. -/
theorem sorted_insert {e : Entry ε} {l : List (Entry ε)} (hs : l.Pairwise Entry.Before)
    (he : ∀ x ∈ l, x.serial < e.serial) : (insert e l).Pairwise Entry.Before := by
  induction l with
  | nil => exact List.pairwise_singleton ..
  | cons x rest ih =>
    obtain ⟨hx, hrest⟩ := List.pairwise_cons.1 hs
    rw [insert]
    split
    · rename_i hlt
      refine List.pairwise_cons.2 ⟨fun y hy => .inl ?_, hs⟩
      rcases List.mem_cons.1 hy with rfl | hy
      · exact hlt
      · rcases hx y hy with h | ⟨h, -⟩
        · exact UInt64.lt_trans hlt h
        · exact h ▸ hlt
    · rename_i hge
      refine List.pairwise_cons.2 ⟨fun y hy => ?_, ih hrest fun y hy => he y (.tail x hy)⟩
      rcases mem_insert.1 hy with rfl | hy
      · rcases UInt64.lt_or_eq_of_le (UInt64.not_lt.1 hge) with h | h
        · exact .inl h
        · exact .inr ⟨h, he x (.head rest)⟩
      · exact hx y hy

/-- Schedules an event at `tick`, or now when that tick has passed. -/
def schedule (a : Agenda ε) (event : ε) (tick : Tick) : Agenda ε where
  now := a.now
  nextSerial := a.nextSerial + 1
  pending := insert ⟨max tick a.now, a.nextSerial, event⟩ a.pending
  sorted := sorted_insert a.sorted fun x hx => (a.current x hx).2
  current x hx := by
    rcases mem_insert.1 hx with rfl | hx
    · exact ⟨by rw [UInt64.le_iff_toNat_le, toNat_max]; exact Nat.le_max_right ..,
        Nat.lt_succ_self _⟩
    · exact ⟨(a.current x hx).1, Nat.lt_succ_of_lt (a.current x hx).2⟩

/-- Takes the next event and moves the clock to its tick. -/
def pop? (a : Agenda ε) : Option (Tick × ε × Agenda ε) :=
  match h : a.pending with
  | [] => none
  | e :: rest => some (e.due, e.event, {
      now := e.due
      nextSerial := a.nextSerial
      pending := rest
      sorted := (List.pairwise_cons.1 (h ▸ a.sorted)).2
      current := fun x hx => by
        refine ⟨?_, (a.current x (h ▸ .tail e hx)).2⟩
        rcases (List.pairwise_cons.1 (h ▸ a.sorted)).1 x hx with hlt | ⟨heq, -⟩
        · exact UInt64.le_of_lt hlt
        · exact heq ▸ UInt64.le_refl _ })

/-- The tick of the next event. -/
def nextTick? (a : Agenda ε) : Option Tick := a.pending.head?.map Entry.due

/-- The number of events still to come. -/
def size (a : Agenda ε) : Nat := a.pending.length

/-- Whether no event is left. -/
def isEmpty (a : Agenda ε) : Bool := a.pending.isEmpty

end Agenda

end TimedBridge
