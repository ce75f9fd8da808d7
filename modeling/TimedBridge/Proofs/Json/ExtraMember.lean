import TimedBridge.Proofs.Json.Outcome

/-!
What a member that is no field does to a record. A strict record refuses it, any other record is read as
without it (`Shape.reacts_member`); what becomes of a record becomes of all that stands around it
(`Shape.reacts_field`, `Reader.reacts_element`).
-/

namespace TimedBridge.Json

variable {α β : Type} {fault? : Option ReadFault}

/-! ### Faults that come instead of a value -/

/-- The fault, if there is one, instead of what has been read. -/
def instead (fault? : Option ReadFault) (a : α) : Except ReadFault α :=
  match fault? with
  | none => .ok a
  | some fault => .error fault

/-- Where one reading succeeds the other ends in the fault or, if there is none, in the same way. -/
def Reacts (fault? : Option ReadFault) (r r' : Except ReadFault α) : Prop :=
  ∀ a, r = .ok a → r' = instead fault? a

/-- The fault stops what would have followed. -/
theorem Reacts.bind {r r' : Except ReadFault α} (h : Reacts fault? r r')
    (k : α → Except ReadFault β) : Reacts fault? (r.bind k) (r'.bind k) := by
  intro b hb
  cases r with
  | error fault => cases hb
  | ok a =>
    rw [h a rfl]
    cases fault? with
    | none => exact hb
    | some fault => rfl

/-- What has been read before is the same. -/
theorem Reacts.bind_left {k k' : α → Except ReadFault β} (h : ∀ a, Reacts fault? (k a) (k' a))
    (r : Except ReadFault α) : Reacts fault? (r.bind k) (r.bind k') := by
  cases r with
  | error fault =>
    intro b hb
    cases hb
  | ok a => exact h a

theorem Reacts.map {r r' : Except ReadFault α} (h : Reacts fault? r r') (f : α → β) :
    Reacts fault? (r.map f) (r'.map f) := by
  have hbind (r : Except ReadFault α) : r.map f = r.bind fun a => .ok (f a) := by
    cases r <;> rfl
  rw [hbind, hbind]
  exact h.bind _

/-- One of the elements makes the difference. -/
theorem Reacts.mapM {f : β → Except ReadFault α} {x x' : β} (h : Reacts fault? (f x) (f x'))
    (before after : List β) :
    Reacts fault? ((before ++ x :: after).mapM f) ((before ++ x' :: after).mapM f) := by
  rw [List.mapM_append, List.mapM_append, List.mapM_cons, List.mapM_cons]
  exact .bind_left (fun _ => (h.bind _).bind _) _

/-- One of the steps makes the difference. -/
theorem Reacts.foldlM {f : α → β → Except ReadFault α} {x x' : β}
    (h : ∀ a, Reacts fault? (f a x) (f a x')) (before after : List β) (a : α) :
    Reacts fault? ((before ++ x :: after).foldlM f a) ((before ++ x' :: after).foldlM f a) := by
  rw [List.foldlM_append, List.foldlM_append]
  exact .bind_left (fun b => (h b).bind _) _

/-- A step that is made in addition makes the difference. -/
theorem Reacts.foldlM_insert {f : α → β → Except ReadFault α} {x : β}
    (h : ∀ a, f a x = instead fault? a) (before after : List β) (a : α) :
    Reacts fault? ((before ++ after).foldlM f a) ((before ++ x :: after).foldlM f a) := by
  rw [List.foldlM_append, List.foldlM_append]
  refine .bind_left (fun b => ?_) _
  rw [List.foldlM_cons, h]
  intro c hc
  cases fault? with
  | none => exact hc
  | some fault => rfl

/-! ### Elements of arrays -/

/-- A value as an element of an array. -/
inductive ElementOf : (Document → Document) → Prop
  | intro (before after : List Document) : ElementOf fun v => .array (before ++ v :: after)

theorem Reader.reacts_element {read : Reader α} (hread : read.Regular) {v v' : Document}
    (h : Reacts fault? (read.outcome v) (read.outcome v')) {place : Document → Document}
    (hplace : ElementOf place) :
    Reacts fault? ((array read).outcome (place v)) ((array read).outcome (place v')) := by
  obtain ⟨before, after⟩ := hplace
  rw [outcome_array hread, outcome_array hread]
  exact h.mapM before after

namespace Shape

variable {s : Shape α}

/-! ### Fields of records -/

/-- A value as the field of a record that is given as an object or as an array. -/
inductive FieldOf (s : Shape α) (name : String) : (Document → Document) → Prop
  | member (known : name ∈ s.names) (before after : List (Except Flaw String × Document)) :
    FieldOf s name fun v => .object (before ++ (.ok name, v) :: after)
  | element (before after : List Document) (known : s.names[before.length]? = some name) :
    FieldOf s name fun v => .array (before ++ v :: after)

/-- The field of a name is read by a reader. -/
def ReadBy (s : Shape α) (name : String) (read : Reader β) : Prop :=
  ∀ f ∈ s.fields, f.name = name → ∃ put required, f = .of name read put required

theorem reacts_field (hs : s.Regular) {name : String} {read : Reader β} (hread : s.ReadBy name read)
    {v v' : Document} (h : Reacts fault? (read.outcome v) (read.outcome v'))
    {place : Document → Document} (hplace : FieldOf s name place) :
    Reacts fault? (s.read.outcome (place v)) (s.read.outcome (place v')) := by
  have hfield : ∀ f ∈ s.fields, f.name = name → ∀ a,
      Reacts fault? ((f.read a).outcome v) ((f.read a).outcome v') := by
    intro f hf hname a
    obtain ⟨put, required, rfl⟩ := hread f hf hname
    rw [Field.of, Reader.outcome_map, Reader.outcome_map]
    exact h.map (put a)
  cases hplace with
  | member known before after =>
    rw [outcome_object hs, outcome_object hs]
    refine .bind (.foldlM (fun st => ?_) before after _) s.finish
    rw [take, take]
    -- The name is one of the fields, so its value is read and not skipped.
    cases hfind : s.fields.find? fun f => f.name = name with
    | none =>
      obtain ⟨f, hf, hname⟩ := List.mem_map.1 known
      exact absurd (decide_eq_true hname) (List.find?_eq_none.1 hfind f hf)
    | some f =>
      have hname : f.name = name :=
        of_decide_eq_true (List.find?_some (p := fun f : Field α => decide (f.name = name)) hfind)
      dsimp only
      cases st.2.contains name with
      | true =>
        intro st hst
        cases hst
      | false => exact (hfield f (List.mem_of_find?_eq_some hfind) hname st.1).map _
  | element before after known =>
    -- The element stands at the position of its field, with as many of both before it.
    rw [names, List.getElem?_map] at known
    obtain ⟨f, hf, hname⟩ := Option.map_eq_some_iff.1 known
    obtain ⟨fs, gs, hfields, hlength⟩ : ∃ fs gs, s.fields = fs ++ f :: gs ∧ fs.length = before.length := by
      obtain ⟨hlt, hget⟩ := List.getElem?_eq_some_iff.1 hf
      refine ⟨s.fields.take before.length, s.fields.drop (before.length + 1), ?_,
        List.length_take_of_le (Nat.le_of_lt hlt)⟩
      rw [← hget, List.getElem_cons_drop, List.take_append_drop]
    have hput : ∀ a, Reacts fault? (put a (f, v)) (put a (f, v')) :=
      hfield f (List.mem_of_getElem? hf) hname
    rw [outcome_array hs, outcome_array hs, hfields, List.zip_append hlength, List.zip_append hlength,
      List.zip_cons_cons, List.zip_cons_cons, List.length_append, List.length_append, List.length_cons,
      List.length_cons]
    exact .bind (.foldlM hput _ _ _) _

/-! ### Members that are no fields -/

/-- The fault of a member that is no field. -/
def refusal? (s : Shape α) : Except Flaw String → Option ReadFault
  | .error f => some (flaw f)
  | .ok key => if s.strict then some (.unfit (.unknownField key s.names)) else none

theorem take_unknown {key : Except Flaw String} (hkey : ∀ name, key = .ok name → name ∉ s.names)
    (v : Document) (st : α × List String) : s.take st (key, v) = instead (s.refusal? key) st := by
  cases key with
  | error f => rfl
  | ok name =>
    have hfind : s.fields.find? (fun f => f.name = name) = none :=
      List.find?_eq_none.2 fun f hf hname =>
        hkey name rfl (of_decide_eq_true hname ▸ List.mem_map_of_mem hf)
    rw [take, hfind, refusal?]
    cases s.strict <;> rfl

/-- A record is refused, or read as before, when a member that is no field is added to it. -/
theorem reacts_member (hs : s.Regular) {key : Except Flaw String}
    (hkey : ∀ name, key = .ok name → name ∉ s.names) (v : Document)
    (before after : List (Except Flaw String × Document)) :
    Reacts (s.refusal? key) (s.read.outcome (.object (before ++ after)))
      (s.read.outcome (.object (before ++ (key, v) :: after))) := by
  rw [outcome_object hs, outcome_object hs]
  exact .bind (.foldlM_insert (take_unknown hkey v) before after _) s.finish

end Shape

end TimedBridge.Json
