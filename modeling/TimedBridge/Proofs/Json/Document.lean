import TimedBridge.Json.Skip
import TimedBridge.Proofs.Json.Lexeme

/-!
The values that a JSON text can hold, and their tokens. The text of a value has just these tokens
(`Document.TextIs.tokens_eq`), and a value is skipped as a whole, whatever follows it
(`Document.skipValue_written`).
-/

namespace TimedBridge.Json

/-- A value in a text. A string has no value when it holds half of a surrogate pair, a numeral has none
when it is beyond every range. -/
inductive Document where
  | null
  | boolean (b : Bool)
  | number (value : Except Flaw Number)
  | string (value : Except Flaw String)
  | array (elements : List Document)
  | object (members : List (Except Flaw String × Document))

namespace Document

/-- What stands in front of an element or member; the flag tells whether it is the first. -/
def separator (first : Bool) : List Token := if first then [] else [.comma]

mutual

/-- The tokens of a value. -/
def written : Document → List Token
  | null => [.null]
  | boolean b => [.boolean b]
  | number value => [.number value (.ok ())]
  | string value => [.string value (.ok ())]
  | array elements => .openArray :: (elementsFrom true elements ++ [.closeArray])
  | object members => .openObject :: (membersFrom true members ++ [.closeObject])

/-- The tokens of elements; the flag tells whether the array has just been opened. -/
def elementsFrom (first : Bool) : List Document → List Token
  | [] => []
  | v :: rest => separator first ++ (v.written ++ elementsFrom false rest)

/-- The tokens of members; the flag tells whether the object has just been opened. -/
def membersFrom (first : Bool) : List (Except Flaw String × Document) → List Token
  | [] => []
  | (k, v) :: rest =>
    separator first ++ .string k (.ok ()) :: .colon :: (v.written ++ membersFrom false rest)

end

/-- Each element has a token at least. -/
theorem length_le_elementsFrom (first : Bool) (vs : List Document) :
    vs.length ≤ (elementsFrom first vs).length := by
  induction vs generalizing first with
  | nil => exact Nat.zero_le _
  | cons v vs ih =>
    have hv : 0 < v.written.length := by cases v <;> exact Nat.succ_pos _
    have hrest := ih false
    rw [elementsFrom, List.length_append, List.length_append, List.length_cons]
    omega

/-- Each member has a token at least. -/
theorem length_le_membersFrom (first : Bool) (ms : List (Except Flaw String × Document)) :
    ms.length ≤ (membersFrom first ms).length := by
  induction ms generalizing first with
  | nil => exact Nat.zero_le _
  | cons m ms ih =>
    have hrest := ih false
    rw [membersFrom, List.length_append, List.length_cons, List.length_cons, List.length_cons,
      List.length_append]
    omega

/-! ### Texts -/

mutual

theorem isChain_written (d : Document) : d.written.IsChain Apart := by
  cases d with
  | array elements => exact Mark.openArray.isChain_cons (isChain_elementsFrom true elements)
  | object members => exact Mark.openObject.isChain_cons (isChain_membersFrom true members)
  | _ => exact List.isChain_singleton _

theorem isChain_elementsFrom (first : Bool) (vs : List Document) :
    (elementsFrom first vs ++ [Token.closeArray]).IsChain Apart := by
  match vs with
  | [] => exact List.isChain_singleton _
  | v :: vs =>
    have hv : (v.written ++ (elementsFrom false vs ++ [Token.closeArray])).IsChain Apart := by
      have hvs := isChain_elementsFrom false vs
      cases vs with
      | nil => exact Mark.closeArray.isChain_append (isChain_written v) hvs
      | cons w vs => exact Mark.comma.isChain_append (isChain_written v) hvs
    rw [elementsFrom, List.append_assoc, List.append_assoc]
    cases first with
    | true => exact hv
    | false => exact Mark.comma.isChain_cons hv

theorem isChain_membersFrom (first : Bool) (ms : List (Except Flaw String × Document)) :
    (membersFrom first ms ++ [Token.closeObject]).IsChain Apart := by
  match ms with
  | [] => exact List.isChain_singleton _
  | (k, v) :: ms =>
    have hv : (v.written ++ (membersFrom false ms ++ [Token.closeObject])).IsChain Apart := by
      have hms := isChain_membersFrom false ms
      cases ms with
      | nil => exact Mark.closeObject.isChain_append (isChain_written v) hms
      | cons m ms => exact Mark.comma.isChain_append (isChain_written v) hms
    have hk : (.string k (.ok ()) :: .colon ::
        (v.written ++ (membersFrom false ms ++ [.closeObject])) : List Token).IsChain Apart :=
      Mark.colon.isChain_append (List.isChain_singleton _) (Mark.colon.isChain_cons hv)
    rw [membersFrom, List.append_assoc, List.cons_append, List.cons_append, List.append_assoc]
    cases first with
    | true => exact hk
    | false => exact Mark.comma.isChain_cons hk

end

/-- A text that holds a value, with blanks wherever they may stand. -/
def TextIs (d : Document) (text : String) : Prop := TextOf d.written text.toList

/-- The text of a value has just the tokens of the value. -/
theorem TextIs.tokens_eq {d : Document} {text : String} (h : d.TextIs text) :
    tokens text = d.written :=
  TextOf.scanTokens h d.isChain_written (Nat.le_refl _)

/-! ### Skipping -/

/-- The state before an element. -/
def elementState (first : Bool) : SkipState := if first then .element else .after

/-- The state before a member. -/
def memberState (first : Bool) : SkipState := if first then .firstKey else .after

variable (stack : List Bracket) (rest : List Token)

theorem skip_element (first : Bool) (v : Document) :
    skip (elementState first) (.array :: stack) (separator first ++ (v.written ++ rest)) =
      skip .value (.array :: stack) (v.written ++ rest) := by
  cases first with
  | true => cases v <;> rfl
  | false => rfl

theorem skip_key (first : Bool) (k : Except Flaw String) :
    skip (memberState first) (.object :: stack)
        (separator first ++ .string k (.ok ()) :: .colon :: rest) =
      skip .value (.object :: stack) rest := by
  cases first <;> rfl

theorem skip_closeArray (first : Bool) :
    skip (elementState first) (.array :: stack) (.closeArray :: rest) = skip .after stack rest := by
  cases first <;> rfl

theorem skip_closeObject (first : Bool) :
    skip (memberState first) (.object :: stack) (.closeObject :: rest) = skip .after stack rest := by
  cases first <;> rfl

mutual

/-- A value is gone over with whatever brackets are open around it. -/
theorem skip_written (d : Document) (stack : List Bracket) (rest : List Token) :
    skip .value stack (d.written ++ rest) = skip .after stack rest := by
  cases d with
  | null => rfl
  | boolean b => rfl
  | number value => rfl
  | string value => rfl
  | array elements =>
    rw [written, List.cons_append, List.append_assoc]
    exact skip_elementsFrom true elements stack rest
  | object members =>
    rw [written, List.cons_append, List.append_assoc]
    exact skip_membersFrom true members stack rest

/-- The rest of an array is gone over. -/
theorem skip_elementsFrom (first : Bool) (vs : List Document) (stack : List Bracket)
    (rest : List Token) :
    skip (elementState first) (.array :: stack) (elementsFrom first vs ++ .closeArray :: rest) =
      skip .after stack rest := by
  match vs with
  | [] => exact skip_closeArray stack rest first
  | v :: vs =>
    rw [elementsFrom, List.append_assoc, List.append_assoc, skip_element, skip_written v]
    exact skip_elementsFrom false vs stack rest

/-- The rest of an object is gone over. -/
theorem skip_membersFrom (first : Bool) (ms : List (Except Flaw String × Document))
    (stack : List Bracket) (rest : List Token) :
    skip (memberState first) (.object :: stack) (membersFrom first ms ++ .closeObject :: rest) =
      skip .after stack rest := by
  match ms with
  | [] => exact skip_closeObject stack rest first
  | (k, v) :: ms =>
    rw [membersFrom, List.append_assoc, List.cons_append, List.cons_append, List.append_assoc, skip_key,
      skip_written v]
    exact skip_membersFrom false ms stack rest

end

/-- A value is skipped as a whole. -/
theorem skipValue_written (d : Document) : Reader.skipValue (d.written ++ rest) = .ok rest := by
  rw [Reader.skipValue, skip_written]
  cases rest <;> rfl

end Document

end TimedBridge.Json
