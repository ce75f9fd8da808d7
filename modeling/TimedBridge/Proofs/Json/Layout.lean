import Mathlib.Data.List.FinRange
import TimedBridge.Json.Record
import TimedBridge.Proofs.Json.Spelling

/-!
Spellings of records. A record may be written as an object with its fields in any order, from which fields
at their defaults may be left out, or as the array of its fields; what a reader of the record's shape makes
of each of these is the record (`Layout.spelling`).
-/

namespace TimedBridge.Json

/-! ### Fields -/

/-- A field of a record: how it is read and written, and how its value stands in the record. -/
structure Facet (α : Type) where
  name : String
  {Value : Type}
  value : Spelling Value
  get : α → Value
  put : α → Value → α
  required : Bool := false
  put_get : ∀ a, put a (get a) = a

namespace Facet

variable {α : Type}

/-- The field as it is read. -/
def field (f : Facet α) : Field α := .of f.name f.value.read f.put f.required

/-- The record `b` with the field of the record `a`. -/
def move (a b : α) (f : Facet α) : α := f.put b (f.get a)

/-- The member of an object has the field of the record. -/
def Spells (a : α) (f : Facet α) (m : String × Json) : Prop :=
  m.1 = f.name ∧ f.value.Spells (f.get a) m.2

@[simp]
theorem field_name (f : Facet α) : f.field.name = f.name := rfl

theorem outcome_field {f : Facet α} {a : α} {j : Json} (h : f.value.Spells (f.get a) j) (b : α) :
    (f.field.read b).outcome j.document = .ok (f.move a b) := by
  have hread : f.field.read b = f.value.read.map (f.put b) := rfl
  rw [hread, Reader.outcome_map, f.value.reads h]
  rfl

theorem find?_field {facets : List (Facet α)} (hnodup : (facets.map Facet.name).Nodup)
    {f : Facet α} (hf : f ∈ facets) :
    (facets.map field).find? (fun g => g.name = f.name) = some f.field := by
  induction facets with
  | nil => contradiction
  | cons g facets ih =>
    rw [List.map_cons, List.nodup_cons] at hnodup
    rw [List.map_cons]
    rcases List.mem_cons.1 hf with rfl | hf
    · exact List.find?_cons_of_pos (decide_eq_true rfl)
    · have hname : g.name ≠ f.name := fun heq => hnodup.1 (heq ▸ List.mem_map_of_mem hf)
      rw [List.find?_cons_of_neg]
      · exact ih hnodup.2 hf
      · exact fun heq => hname (of_decide_eq_true heq)

end Facet

/-- A shape whose fields can be read and written, each without regard to the others. -/
structure Layout (α : Type) where
  shape : Shape α
  facets : List (Facet α)
  fields : shape.fields = facets.map Facet.field
  nodup : (facets.map Facet.name).Nodup
  commute : ∀ f ∈ facets, ∀ g ∈ facets, ∀ a b, g.move a (f.move a b) = f.move a (g.move a b)
  /-- The fields are the whole record. -/
  complete : ∀ a b, facets.foldl (Facet.move a) b = a

namespace Layout

variable {α : Type}

/-- The value is the record as an object or as an array. -/
inductive Spells (l : Layout α) (a : α) : Json → Prop
  /-- The fields kept are written in any order, the fields left out are at their defaults. -/
  | object {kept dropped : List (Facet α)} {members : List (String × Json)}
      (perm : (kept ++ dropped).Perm l.facets)
      (kept_spelt : List.Forall₂ (Facet.Spells a) kept members)
      (dropped_default : ∀ f ∈ dropped, f.required = false ∧ f.get a = f.get l.shape.blank) :
      Spells l a (.object members)
  /-- All the fields are written in the order of declaration. -/
  | array {elements : List Json}
      (spelt : List.Forall₂ (fun f j => f.value.Spells (f.get a) j) l.facets elements) :
      Spells l a (.array elements)

theorem Spells.sized {l : Layout α} {a : α} {j : Json} (h : l.Spells a j) : j.Sized := by
  cases h with
  | object _ kept_spelt _ =>
    exact .object (forall_mem_of_forall₂ (P := fun m : String × Json => m.2.Sized)
      (fun f _ h => f.value.sized h.2) kept_spelt)
  | array spelt =>
    exact .array (forall_mem_of_forall₂ (P := Sized) (fun f _ => f.value.sized) spelt)

/-- All the fields in the order of declaration. -/
theorem Spells.inOrder {l : Layout α} {a : α} {members : List (String × Json)}
    (spelt : List.Forall₂ (Facet.Spells a) l.facets members) : l.Spells a (.object members) := by
  have perm : (l.facets ++ []).Perm l.facets := .of_eq (List.append_nil l.facets)
  exact .object perm spelt (List.forall_mem_nil _)

/-- The fields at some positions in any order, those at the others at their defaults. -/
theorem Spells.permuted {l : Layout α} {a : α} {members : List (String × Json)}
    (kept dropped : List (Fin l.facets.length))
    (perm : (kept ++ dropped).Perm (List.finRange l.facets.length))
    (spelt : List.Forall₂ (fun i m => Facet.Spells a (l.facets.get i) m) kept members)
    (dropped_default : ∀ i ∈ dropped, (l.facets.get i).required = false ∧
      (l.facets.get i).get a = (l.facets.get i).get l.shape.blank) :
    l.Spells a (.object members) := by
  have hperm := perm.map l.facets.get
  rw [List.map_append, List.map_get_finRange] at hperm
  exact .object hperm (List.forall₂_map_left_iff.2 spelt) (List.forall_mem_map.2 dropped_default)

variable {l : Layout α} {a b : α} {seen : List String}

/-- Each field is read as a whole. -/
theorem regular (l : Layout α) : l.shape.Regular := by
  intro f hf b
  rw [l.fields] at hf
  obtain ⟨g, -, rfl⟩ := List.mem_map.1 hf
  exact Shape.regular_field g.name g.put g.required g.value.regular b

/-! ### Objects -/

/-- A field that has not been seen is taken from its member. -/
theorem take_member {f : Facet α} (hf : f ∈ l.facets) (hseen : f.name ∉ seen) {j : Json}
    (hspells : f.value.Spells (f.get a) j) :
    l.shape.take (b, seen) (.ok f.name, j.document) = .ok (f.move a b, f.name :: seen) := by
  have hfind : l.shape.fields.find? (fun g => g.name = f.name) = some f.field := by
    rw [l.fields]
    exact Facet.find?_field l.nodup hf
  rw [Shape.take, hfind]
  dsimp only
  rw [if_neg (by simpa using hseen), Facet.outcome_field hspells]
  rfl

/-- Fields that have not been seen are taken one after the other from their members. -/
theorem foldlM_take {kept : List (Facet α)} {members : List (String × Json)}
    (h : List.Forall₂ (Facet.Spells a) kept members) (hmem : ∀ f ∈ kept, f ∈ l.facets)
    (hnodup : (kept.map Facet.name).Nodup) (hseen : ∀ f ∈ kept, f.name ∉ seen) :
    (memberDocuments members).foldlM l.shape.take (b, seen) =
      .ok (kept.foldl (Facet.move a) b, (kept.map Facet.name).reverse ++ seen) := by
  induction h generalizing b seen with
  | nil => rfl
  | @cons f m kept members hspells _ ih =>
    obtain ⟨k, v⟩ := m
    obtain ⟨rfl, hspells⟩ := hspells
    rw [List.forall_mem_cons] at hmem hseen
    rw [List.map_cons, List.nodup_cons] at hnodup
    have hseen' : ∀ g ∈ kept, g.name ∉ f.name :: seen := fun g hg =>
      List.not_mem_cons_of_ne_of_not_mem
        (fun heq => hnodup.1 (heq ▸ List.mem_map_of_mem hg)) (hseen.2 g hg)
    rw [memberDocuments, List.foldlM_cons, take_member hmem.1 hseen.1 hspells, List.map_cons,
      List.reverse_cons, List.append_assoc]
    exact ih hmem.2 hnodup.2 hseen'

theorem missing?_eq_none (h : ∀ f ∈ l.facets, f.required = false ∨ f.name ∈ seen) :
    l.shape.missing? seen = none := by
  rw [Shape.missing?, Option.map_eq_none_iff, List.find?_eq_none, l.fields, List.forall_mem_map]
  intro f hf hmissing
  obtain ⟨hrequired, hunseen⟩ := Bool.and_eq_true_iff.1 hmissing
  rcases h f hf with hoptional | hseen
  · exact Bool.noConfusion (hoptional.symm.trans hrequired)
  · simp [hseen] at hunseen

theorem foldl_move_dropped {dropped : List (Facet α)} (h : ∀ f ∈ dropped, f.get a = f.get b) :
    dropped.foldl (Facet.move a) b = b := by
  induction dropped with
  | nil => rfl
  | cons f dropped ih =>
    rw [List.forall_mem_cons] at h
    rw [List.foldl_cons, Facet.move, h.1, f.put_get, ih h.2]

/-- Fields at their defaults need not be moved. -/
theorem foldl_move_kept {kept dropped : List (Facet α)} (hperm : (kept ++ dropped).Perm l.facets)
    (hdropped : ∀ f ∈ dropped, f.get a = f.get l.shape.blank) :
    kept.foldl (Facet.move a) l.shape.blank = a := by
  have hall := List.perm_append_comm.trans hperm
  calc
    kept.foldl (Facet.move a) l.shape.blank
    _ = (dropped ++ kept).foldl (Facet.move a) l.shape.blank := by
      rw [List.foldl_append, foldl_move_dropped hdropped]
    _ = l.facets.foldl (Facet.move a) l.shape.blank :=
      hall.foldl_eq'
        (fun f hf g hg b => l.commute f (hall.mem_iff.1 hf) g (hall.mem_iff.1 hg) a b) _
    _ = a := l.complete a _

theorem outcome_object {kept dropped : List (Facet α)} {members : List (String × Json)}
    (hperm : (kept ++ dropped).Perm l.facets)
    (hkept : List.Forall₂ (Facet.Spells a) kept members)
    (hdropped : ∀ f ∈ dropped, f.required = false ∧ f.get a = f.get l.shape.blank) :
    l.shape.read.outcome (.object (memberDocuments members)) = .ok a := by
  have hnodup : (kept.map Facet.name).Nodup := by
    have hall := (hperm.map Facet.name).nodup_iff.2 l.nodup
    rw [List.map_append] at hall
    exact List.Nodup.of_append_left hall
  have hmem : ∀ f ∈ kept, f ∈ l.facets := fun f hf =>
    hperm.mem_iff.1 (List.mem_append_left _ hf)
  have hmissing : l.shape.missing? ((kept.map Facet.name).reverse ++ []) = none := by
    refine missing?_eq_none fun f hf => ?_
    rcases List.mem_append.1 (hperm.mem_iff.2 hf) with hf | hf
    · exact .inr (List.mem_append_left _ (List.mem_reverse.2 (List.mem_map_of_mem hf)))
    · exact .inl (hdropped f hf).1
  rw [Shape.outcome_object l.regular, foldlM_take hkept hmem hnodup (fun _ _ => List.not_mem_nil)]
  dsimp only [Except.bind]
  rw [Shape.finish, hmissing, foldl_move_kept hperm fun f hf => (hdropped f hf).2]

/-! ### Arrays -/

theorem foldlM_put {facets : List (Facet α)} {js : List Json}
    (h : List.Forall₂ (fun f j => f.value.Spells (f.get a) j) facets js) (b : α) :
    ((facets.map Facet.field).zip (documents js)).foldlM Shape.put b =
      .ok (facets.foldl (Facet.move a) b) := by
  induction h generalizing b with
  | nil => rfl
  | @cons f v facets js hspells _ ih =>
    rw [List.map_cons, documents, List.zip_cons_cons, List.foldlM_cons, Shape.put,
      Facet.outcome_field hspells]
    exact ih (f.move a b)

theorem outcome_array {js : List Json}
    (h : List.Forall₂ (fun f j => f.value.Spells (f.get a) j) l.facets js) :
    l.shape.read.outcome (.array (documents js)) = .ok a := by
  have hlength : (documents js).length = l.shape.fields.length := by
    rw [length_documents, l.fields, List.length_map, h.length_eq]
  have hmissing : l.shape.missing? (l.shape.names.take (documents js).length) = none := by
    refine missing?_eq_none fun f hf => .inr ?_
    rw [hlength, Shape.names, List.take_of_length_le (by simp), l.fields, List.map_map]
    exact List.mem_map_of_mem hf
  rw [Shape.outcome_array l.regular, l.fields, foldlM_put h, l.complete]
  dsimp only [Except.bind]
  rw [Shape.finishArray, hmissing]
  dsimp only
  rw [if_pos (Nat.le_of_eq hlength)]

/-- What is made of a record as it is written is the record. -/
theorem Spells.outcome_eq {j : Json} (h : l.Spells a j) : l.shape.read.outcome j.document = .ok a := by
  cases h with
  | object hperm hkept hdropped => exact outcome_object hperm hkept hdropped
  | array hspelt => exact outcome_array hspelt

/-- The spellings of a record. -/
def spelling (l : Layout α) : Spelling α where
  read := l.shape.read
  Spells := l.Spells
  sized := Spells.sized
  regular := Shape.regular_read l.regular
  reads := Spells.outcome_eq

end Layout

end TimedBridge.Json
