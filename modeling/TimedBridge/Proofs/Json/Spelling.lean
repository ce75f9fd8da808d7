import Mathlib.Data.List.Forall2
import TimedBridge.Proofs.Json.Outcome
import TimedBridge.Proofs.Json.Written

/-!
Readers together with the ways in which the values that they read may be written. A `Spelling` carries the
proofs that its reader takes values as a whole and makes of each of these ways the value that was written;
spellings of words, names and arrays are put together to spellings of records.
-/

namespace TimedBridge.Json

/-- A reader, and the ways in which a value may be written for it. -/
structure Spelling (α : Type) where
  read : Reader α
  /-- The value may be written so. -/
  Spells : α → Json → Prop
  sized : ∀ {a j}, Spells a j → j.Sized
  regular : read.Regular
  reads : ∀ {a j}, Spells a j → read.outcome j.document = .ok a

theorem forall_mem_of_forall₂ {α β : Type*} {R : α → β → Prop} {P : β → Prop}
    (hR : ∀ a b, R a b → P b) {as : List α} {bs : List β} (h : List.Forall₂ R as bs) :
    ∀ b ∈ bs, P b := by
  induction h with
  | nil => exact List.forall_mem_nil P
  | cons hb _ ih => exact List.forall_mem_cons.2 ⟨hR _ _ hb, ih⟩

namespace Spelling

variable {α : Type}

/-- A number that is read as a value of another type. -/
def natural (limit : Nat) (expected : String) (ofNat : Nat → α) (toNat : α → Nat)
    (hlimit : limit ≤ 0xffffffffffffffff) (hle : ∀ a, toNat a ≤ limit)
    (hof : ∀ a, ofNat (toNat a) = a) : Spelling α where
  read := Reader.map ofNat (Reader.natural limit expected)
  Spells a j := j = .number (toNat a)
  sized := by
    rintro a j rfl
    exact .number ((hle a).trans hlimit)
  regular := Reader.regular_map ofNat (Reader.regular_natural limit expected)
  reads := by
    rintro a j rfl
    have hread : (Reader.natural limit expected).outcome (.number (.ok (.natural (toNat a)))) =
        .ok (toNat a) := by
      rw [Reader.outcome, Document.written, Reader.natural, if_pos (hle a)]
      rfl
    rw [document, Reader.outcome_map, hread]
    exact congrArg Except.ok (hof a)

/-- A word of 64 bits. -/
def word64 : Spelling UInt64 :=
  natural 0xffffffffffffffff "u64" UInt64.ofNat UInt64.toNat (Nat.le_refl _)
    (fun n => Nat.le_of_lt_succ n.toNat_lt) (fun _ => UInt64.ofNat_toNat)

/-- A count that fits into a word of 64 bits. -/
def count : Spelling UInt64 :=
  natural 0xffffffffffffffff "usize" UInt64.ofNat UInt64.toNat (Nat.le_refl _)
    (fun n => Nat.le_of_lt_succ n.toNat_lt) (fun _ => UInt64.ofNat_toNat)

/-- A word of 32 bits. -/
def word32 : Spelling UInt32 :=
  natural 0xffffffff "u32" UInt32.ofNat UInt32.toNat (by decide)
    (fun n => Nat.le_of_lt_succ n.toNat_lt) (fun _ => UInt32.ofNat_toNat)

/-- A byte. -/
def byte : Spelling UInt8 :=
  natural 0xff "u8" UInt8.ofNat UInt8.toNat (by decide)
    (fun n => Nat.le_of_lt_succ n.toNat_lt) (fun _ => UInt8.ofNat_toNat)

/-- A value that is given by its name. -/
def variant (variants : List (String × α)) (text : α → String)
    (hlookup : ∀ a, variants.lookup (text a) = some a) : Spelling α where
  read := Reader.variant variants
  Spells a j := j = .string (text a)
  sized := by
    rintro a j rfl
    exact .string (text a)
  regular := Reader.regular_variant variants
  reads := by
    rintro a j rfl
    rw [document, Reader.outcome, Document.written, Reader.variant, Reader.variantOf, hlookup]
    rfl

/-- Elements that are read one by one are read together. -/
theorem mapM_documents {s : Spelling α} {as : List α} {js : List Json}
    (h : List.Forall₂ s.Spells as js) : (documents js).mapM s.read.outcome = .ok as := by
  induction h with
  | nil => rfl
  | cons hfirst _ ih =>
    rw [documents, List.mapM_cons, s.reads hfirst, ih]
    rfl

/-- An array of values, each written in one of the ways. -/
def array (s : Spelling α) : Spelling (List α) where
  read := Reader.array s.read
  Spells as j := ∃ js, j = .array js ∧ List.Forall₂ s.Spells as js
  sized := by
    rintro as j ⟨js, rfl, hspells⟩
    exact .array (forall_mem_of_forall₂ (P := Sized) (fun _ _ => s.sized) hspells)
  regular := Reader.regular_array s.regular
  reads := by
    rintro as j ⟨js, rfl, hspells⟩
    rw [document, Reader.outcome_array s.regular, mapM_documents hspells]

/-- Values that are written alike are written so in an array. -/
theorem array_spells {s : Spelling α} {write : α → Json} (h : ∀ a, s.Spells a (write a))
    (as : List α) : s.array.Spells as (.array (as.map write)) :=
  ⟨_, rfl, List.forall₂_map_right_iff.2 (List.forall₂_same.2 fun a _ => h a)⟩

end Spelling

end TimedBridge.Json
