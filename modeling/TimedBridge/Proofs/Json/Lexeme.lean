import Mathlib.Data.List.Chain
import TimedBridge.Json.Token
import TimedBridge.Proofs.Json.Numeral

/-!
The texts of tokens by their grammar. Blanks may stand between tokens; a string may have escapes, a numeral
a fraction and an exponent. A text is cut into just these tokens (`TextOf.scanTokens`) when no two of them
stand next to each other that could run together.
-/

namespace TimedBridge.Json

variable {c : Char} {t : Token} {ts ts' : List Token} {w cs cs' : List Char}

/-! ### Strings -/

/-- What may stand between the quotes of a string. -/
inductive StringText : List Char → Prop
  | nil : StringText []
  | plain {c : Char} {cs : List Char} (hquote : c ≠ '"') (hbackslash : c ≠ '\\')
      (hcontrol : 0x20 ≤ c.toNat) (h : StringText cs) : StringText (c :: cs)
  | escape {e : Char} {cs : List Char} (he : e ∈ ['"', '\\', '/', 'b', 'f', 'n', 'r', 't'])
      (h : StringText cs) : StringText ('\\' :: e :: cs)
  | unit {n : Nat} {a b c d : Char} {cs : List Char} (hunit : unit? [a, b, c, d] = .ok n)
      (h : StringText cs) : StringText ('\\' :: 'u' :: a :: b :: c :: d :: cs)

/-- The value of a string. -/
def stringValue (cs : List Char) : Except Flaw String := (scanString (.ok []) none (cs ++ ['"'])).value

/-- A string is gone over up to its closing quote, and has a value by itself. -/
theorem scanString_text (h : StringText cs) (read : Collected) (half : Option Nat) (rest : List Char) :
    scanString read half (cs ++ '"' :: rest) =
      ⟨(scanString read half (cs ++ ['"'])).value, .ok (), rest⟩ := by
  induction h generalizing read half with
  | nil => rfl
  | @plain c cs hquote hbackslash hcontrol _ ih =>
    have hplain (more : List Char) : scanString read half (c :: more) =
        scanString ((read.unpaired half).map (c :: ·)) none more := by
      rw [scanString, if_neg hquote, if_neg (Nat.not_lt.2 hcontrol)]
      · exact fun heq => absurd heq hbackslash
      · exact fun _ heq => absurd heq hbackslash
      · exact fun _ _ heq => absurd heq hbackslash
    rw [List.cons_append, List.cons_append, hplain, hplain, ih]
  | @escape e cs he _ ih =>
    simp only [List.mem_cons, List.not_mem_nil, or_false] at he
    rcases he with rfl | rfl | rfl | rfl | rfl | rfl | rfl | rfl <;> exact ih ..
  | @unit n a b c d cs hunit _ ih =>
    have hpair (more : List Char) :
        scanString read half ('\\' :: 'u' :: a :: b :: c :: d :: more) =
          scanString (read.addUnit half n).1 (read.addUnit half n).2 more := by
      rw [scanString]
      exact hunit
    exact (hpair _).trans ((ih ..).trans (by rw [← hpair]; rfl))

theorem scanToken_text (h : StringText cs) (rest : List Char) :
    scanToken '"' (cs ++ '"' :: rest) = (.string (stringValue cs) (.ok ()), some rest) := by
  have hscan := scanString_text h (.ok []) none rest
  unfold scanToken
  dsimp only
  rw [hscan]
  rfl

/-! ### Numerals -/

/-- A numeral begins with a sign or a digit. -/
theorem scanToken_of_scan (hc : (c = '-' || c.isDigit) = true) {l : Numeral} {rest : List Char}
    (hscan : Numeral.scan (c :: cs) = .complete l rest) :
    scanToken c cs = (.number (l.value?.elim (.error .malformed) .ok) (.ok ()), some rest) := by
  unfold scanToken
  split
  case h_11 =>
    rw [if_pos hc, hscan]
  all_goals exact absurd hc (by decide)

theorem isSpace_eq_false (hc : (c = '-' || c.isDigit) = true) : isSpace c = false := by
  refine Bool.eq_false_iff.2 fun hspace => ?_
  simp only [isSpace, Bool.or_eq_true, decide_eq_true_eq] at hspace
  rcases hspace with ((rfl | rfl) | rfl) | rfl <;> exact absurd hc (by decide)

theorem scanTokens_number {l : Numeral} (h : l.Text cs) {rest : List Char} (hends : Numeral.Ends rest)
    (n : Nat) : scanTokens (n + 1) (cs ++ rest) =
      .number (l.value?.elim (.error .malformed) .ok) (.ok ()) :: scanTokens n rest := by
  have hscan := Numeral.scan_text h hends
  obtain ⟨c, cs, rfl, hc⟩ := h.exists_cons
  rw [List.cons_append] at hscan ⊢
  rw [scanTokens, if_neg (Bool.eq_false_iff.1 (isSpace_eq_false hc)), scanToken_of_scan hc hscan]

/-! ### Tokens -/

/-- A character that is a token by itself. -/
inductive Mark : Char → Token → Prop
  | openObject : Mark '\x7b' .openObject
  | closeObject : Mark '\x7d' .closeObject
  | openArray : Mark '[' .openArray
  | closeArray : Mark ']' .closeArray
  | comma : Mark ',' .comma
  | colon : Mark ':' .colon

/-- The text of a token. -/
inductive Lexeme : Token → List Char → Prop
  | mark {c : Char} {t : Token} (h : Mark c t) : Lexeme t [c]
  | null : Lexeme .null ['n', 'u', 'l', 'l']
  | true : Lexeme (.boolean true) ['t', 'r', 'u', 'e']
  | false : Lexeme (.boolean false) ['f', 'a', 'l', 's', 'e']
  | number {l : Numeral} {cs : List Char} (h : l.Text cs) :
    Lexeme (.number (l.value?.elim (.error .malformed) .ok) (.ok ())) cs
  | string {cs : List Char} (h : StringText cs) :
    Lexeme (.string (stringValue cs) (.ok ())) ('"' :: (cs ++ ['"']))

/-- The text of tokens, with blanks before, between and behind them. -/
inductive TextOf : List Token → List Char → Prop
  | nil : TextOf [] []
  | blank {c : Char} {ts : List Token} {cs : List Char} (hspace : isSpace c = true)
      (h : TextOf ts cs) : TextOf ts (c :: cs)
  | token {t : Token} {ts : List Token} {w cs : List Char} (ht : Lexeme t w) (h : TextOf ts cs) :
    TextOf (t :: ts) (w ++ cs)

theorem Mark.ends (h : Mark c t) (rest : List Char) : Numeral.Ends (c :: rest) := by
  rintro _ ⟨⟩
  cases h <;> decide

theorem Mark.scanTokens_cons (h : Mark c t) (n : Nat) (cs : List Char) :
    scanTokens (n + 1) (c :: cs) = t :: scanTokens n cs := by
  cases h <;> rfl

/-- One of two tokens is a mark. -/
def Apart (t t' : Token) : Prop := (∃ c, Mark c t) ∨ ∃ c, Mark c t'

theorem ends_of_isSpace {c : Char} (hspace : isSpace c = true) (rest : List Char) :
    Numeral.Ends (c :: rest) := by
  rintro _ ⟨⟩
  simp only [isSpace, Bool.or_eq_true, decide_eq_true_eq] at hspace
  rcases hspace with ((rfl | rfl) | rfl) | rfl <;> decide

/-- A numeral does not go on in a text that is empty or whose first token is a mark. -/
theorem TextOf.ends (h : TextOf ts cs) (hmark : ∀ t ∈ ts.head?, ∃ c, Mark c t) : Numeral.Ends cs := by
  cases h with
  | nil => exact nofun
  | blank hspace => exact ends_of_isSpace hspace _
  | token ht =>
    obtain ⟨c, hc⟩ := hmark _ rfl
    cases ht with
    | mark h => exact h.ends _
    | _ => cases hc

/-- A token is taken from the beginning of a text. -/
theorem Lexeme.scanTokens_append (h : Lexeme t w) (hends : (∀ c, ¬ Mark c t) → Numeral.Ends cs) (n : Nat) :
    scanTokens (n + 1) (w ++ cs) = t :: scanTokens n cs := by
  cases h with
  | mark h => exact h.scanTokens_cons n cs
  | null => rfl
  | true => rfl
  | false => rfl
  | string h =>
    rw [List.cons_append, List.append_assoc, List.singleton_append, scanTokens, if_neg (by decide),
      scanToken_text h]
  | number h => exact scanTokens_number h (hends nofun) n

theorem Lexeme.length_pos (h : Lexeme t w) : 0 < w.length := by
  cases h with
  | number h =>
    obtain ⟨c, w, rfl, -⟩ := h.exists_cons
    exact Nat.succ_pos _
  | _ => exact Nat.succ_pos _

theorem TextOf.scanTokens (h : TextOf ts cs) (hapart : ts.IsChain Apart) {n : Nat}
    (hn : cs.length ≤ n) : scanTokens n cs = ts := by
  induction h generalizing n with
  | nil => cases n <;> rfl
  | blank hspace _ ih =>
    obtain ⟨n, rfl⟩ := Nat.exists_eq_add_one_of_ne_zero (Nat.ne_zero_of_lt hn)
    rw [Json.scanTokens, if_pos hspace]
    exact ih hapart (Nat.le_of_succ_le_succ hn)
  | @token t ts w cs ht h ih =>
    have hw := ht.length_pos
    rw [List.length_append] at hn
    obtain ⟨n, rfl⟩ := Nat.exists_eq_add_one_of_ne_zero (n := n) (by omega)
    rw [ht.scanTokens_append, ih hapart.tail (by omega)]
    intro hnot
    -- The token is no mark, so the one behind it is, and the text goes on with blanks or that mark.
    refine h.ends fun t' ht' => ?_
    obtain ⟨ts, rfl⟩ := List.head?_eq_some_iff.1 ht'
    rcases (List.isChain_cons_cons.1 hapart).1 with ⟨c, hc⟩ | hmark
    · exact absurd hc (hnot c)
    · exact hmark

theorem TextOf.append (h : TextOf ts cs) (h' : TextOf ts' cs') : TextOf (ts ++ ts') (cs ++ cs') := by
  induction h with
  | nil => exact h'
  | blank hspace _ ih => exact .blank hspace ih
  | token ht _ ih =>
    rw [List.append_assoc]
    exact .token ht ih

/-- Tokens that are in order by themselves are so in front of a mark. -/
theorem Mark.isChain_append {c : Char} (hmark : Mark c t) {ts' : List Token} (h : ts.IsChain Apart)
    (h' : (t :: ts').IsChain Apart) : (ts ++ t :: ts').IsChain Apart := by
  refine List.isChain_append.2 ⟨h, h', ?_⟩
  rintro x - _ ⟨⟩
  exact .inr ⟨c, hmark⟩

theorem Mark.isChain_cons {c : Char} (hmark : Mark c t) (h : ts.IsChain Apart) :
    (t :: ts).IsChain Apart :=
  List.isChain_cons.2 ⟨fun _ _ => .inl ⟨c, hmark⟩, h⟩

end TimedBridge.Json
