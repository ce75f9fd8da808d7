import Mathlib.Data.List.Basic
import Mathlib.Tactic.IntervalCases
import TimedBridge.Json.Value
import TimedBridge.Proofs.Json.Document

/-!
Values that have been written, as values in a text. Their strings and numerals are sound, and the compact
text of a value whose numbers fit into a word is one of its texts (`textIs_compact`).
-/

namespace TimedBridge.Json

/-- The numbers in a value fit into a word. -/
inductive Sized : Json → Prop
  | null : Sized null
  | boolean (b : Bool) : Sized (boolean b)
  | number {n : Nat} (h : n ≤ 0xffffffffffffffff) : Sized (number n)
  | string (s : String) : Sized (string s)
  | array {elements : List Json} (h : ∀ v ∈ elements, Sized v) : Sized (array elements)
  | object {members : List (String × Json)} (h : ∀ m ∈ members, Sized m.2) : Sized (object members)

/-! ### Values in a text -/

mutual

/-- The value as it stands in a text. -/
def document : Json → Document
  | null => .null
  | boolean b => .boolean b
  | number n => .number (.ok (.natural n))
  | string s => .string (.ok s)
  | array elements => .array (documents elements)
  | object members => .object (memberDocuments members)

/-- Elements as they stand in a text. -/
def documents : List Json → List Document
  | [] => []
  | v :: rest => v.document :: documents rest

/-- Members as they stand in a text. -/
def memberDocuments : List (String × Json) → List (Except Flaw String × Document)
  | [] => []
  | (k, v) :: rest => (.ok k, v.document) :: memberDocuments rest

end

theorem length_documents (vs : List Json) : (documents vs).length = vs.length := by
  induction vs with
  | nil => rfl
  | cons v rest ih => rw [documents, List.length_cons, List.length_cons, ih]

/-! ### Strings -/

/-- A character that has been written is read as itself. -/
theorem scanString_escapedChar (read : Collected) (c : Char) (rest : List Char) :
    scanString read none (escapedChar c ++ rest) = scanString (read.map (c :: ·)) none rest := by
  unfold escapedChar
  split
  all_goals try rfl
  rename_i hquote hbackslash _ _ _ _ _
  split
  next hlow =>
    obtain ⟨k, hk, rfl⟩ : ∃ k < 0x20, c = Char.ofNat k := ⟨c.toNat, hlow, (Char.ofNat_toNat c).symm⟩
    interval_cases k <;> rfl
  next hhigh =>
    rw [List.singleton_append, scanString, if_neg hquote, if_neg hhigh]
    · rfl
    · exact fun heq => absurd heq hbackslash
    · exact fun _ heq => absurd heq hbackslash
    · exact fun _ _ heq => absurd heq hbackslash

/-- The text of a string, behind its opening quote, is read as the string. -/
theorem scanString_escaped (acc cs rest : List Char) :
    scanString (.ok acc) none (cs.flatMap escapedChar ++ '"' :: rest) =
      ⟨.ok (String.ofList (acc.reverse ++ cs)), .ok (), rest⟩ := by
  induction cs generalizing acc with
  | nil =>
    rw [List.append_nil]
    rfl
  | cons c cs ih =>
    rw [List.flatMap_cons, List.append_assoc, scanString_escapedChar]
    refine (ih (c :: acc)).trans ?_
    rw [List.reverse_cons, List.append_assoc, List.singleton_append]

/-- A character that has been written may stand in a string. -/
theorem stringText_escapedChar (c : Char) {cs : List Char} (h : StringText cs) :
    StringText (escapedChar c ++ cs) := by
  unfold escapedChar
  split
  all_goals try exact .escape (by decide) h
  rename_i hquote hbackslash _ _ _ _ _
  split
  next hlow =>
    obtain ⟨k, hk, rfl⟩ : ∃ k < 0x20, c = Char.ofNat k := ⟨c.toNat, hlow, (Char.ofNat_toNat c).symm⟩
    interval_cases k <;> exact .unit rfl h
  next hhigh => exact .plain hquote hbackslash (Nat.not_lt.1 hhigh) h

theorem stringText_escaped (cs : List Char) : StringText (cs.flatMap escapedChar) := by
  induction cs with
  | nil => exact .nil
  | cons c cs ih => exact stringText_escapedChar c ih

theorem textOf_string (s : String) : TextOf [.string (.ok s) (.ok ())] (stringText s).toList := by
  have hvalue : stringValue (s.toList.flatMap escapedChar) = .ok s := by
    rw [stringValue, scanString_escaped, List.reverse_nil, List.nil_append, String.ofList_toList]
  have htext := TextOf.token (.string (stringText_escaped s.toList)) .nil
  rw [hvalue] at htext
  simpa [stringText] using htext

/-! ### Compact texts -/

theorem textOf_number {n : Nat} (h : n ≤ 0xffffffffffffffff) :
    TextOf (number n).document.written (toString n).toList := by
  have htext := TextOf.token (.number (Numeral.text_toDigits n)) .nil
  rw [Numeral.value?_ofNatural h, List.append_nil] at htext
  rwa [← Nat.toList_repr] at htext

theorem textOf_elements {elements : List Json}
    (h : ∀ v ∈ elements, TextOf v.document.written v.compact.toList) :
    TextOf (Document.elementsFrom true (documents elements)) (compactElements elements).toList := by
  induction elements with
  | nil => exact .nil
  | cons v rest ih =>
    rw [List.forall_mem_cons] at h
    cases rest with
    | nil => simpa [compactElements, documents, Document.elementsFrom, Document.separator] using h.1
    | cons w rest =>
      have hrest := h.1.append (.token (.mark .comma) (ih h.2))
      simpa [compactElements, documents, Document.elementsFrom, Document.separator] using hrest

theorem textOf_member (k : String) {ts : List Token} {cs : List Char} (h : TextOf ts cs) :
    TextOf (.string (.ok k) (.ok ()) :: .colon :: ts) ((stringText k).toList ++ ':' :: cs) :=
  (textOf_string k).append (.token (.mark .colon) h)

theorem textOf_members {members : List (String × Json)}
    (h : ∀ m ∈ members, TextOf m.2.document.written m.2.compact.toList) :
    TextOf (Document.membersFrom true (memberDocuments members)) (compactMembers members).toList := by
  induction members with
  | nil => exact .nil
  | cons m rest ih =>
    obtain ⟨k, v⟩ := m
    rw [List.forall_mem_cons] at h
    cases rest with
    | nil =>
      have hlast := textOf_member k h.1
      simpa [compactMembers, memberDocuments, Document.membersFrom, Document.separator] using hlast
    | cons m rest =>
      have hrest := textOf_member k (h.1.append (.token (.mark .comma) (ih h.2)))
      simpa [compactMembers, memberDocuments, Document.membersFrom, Document.separator] using hrest

/-- The compact text of a value is one of its texts. -/
theorem textIs_compact {j : Json} (h : j.Sized) : j.document.TextIs j.compact := by
  rw [Document.TextIs]
  induction h with
  | null => exact .token .null .nil
  | boolean b =>
    cases b with
    | false => exact .token .false .nil
    | true => exact .token .true .nil
  | number h => exact textOf_number h
  | string s => exact textOf_string s
  | @array elements _ ih =>
    have harray := TextOf.token (.mark .openArray)
      ((textOf_elements ih).append (.token (.mark .closeArray) .nil))
    simpa [compact, document, Document.written] using harray
  | @object members _ ih =>
    have hobject := TextOf.token (.mark .openObject)
      ((textOf_members ih).append (.token (.mark .closeObject) .nil))
    simpa [compact, document, Document.written] using hobject

end TimedBridge.Json
