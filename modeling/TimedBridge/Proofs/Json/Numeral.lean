import Mathlib.Tactic.IntervalCases
import TimedBridge.Json.Numeral

/-!
The texts of numerals. Each of them is read as its numeral, whatever follows it that cannot go on with a
numeral (`scan_text`); the decimal digits of a number that fits into a word have that number as their value
(`text_toDigits`, `value?_ofNatural`).
-/

namespace TimedBridge.Json.Numeral

/-- The numeral does not go on in the text that follows it. -/
def Ends (rest : List Char) : Prop :=
  ∀ c ∈ rest.head?, c.isDigit = false ∧ c ≠ '.' ∧ c ≠ 'e' ∧ c ≠ 'E'

/-- The numeral of a natural number. -/
def ofNatural (n : Nat) : Numeral :=
  ⟨false, (Nat.toDigits 10 n).map fun c => c.toNat - 48, [], none⟩

/-! ### Digits -/

/-- No digit follows. -/
def Stops (rest : List Char) : Prop := ∀ c ∈ rest.head?, c.isDigit = false

/-- Decimal digits, one at least. -/
structure Digits (cs : List Char) : Prop where
  nonempty : cs ≠ []
  isDigit : ∀ c ∈ cs, c.isDigit = true

/-- The values of digits. -/
def values (cs : List Char) : List Nat := cs.map fun c => c.toNat - 48

theorem Ends.stops {rest : List Char} (h : Ends rest) : Stops rest :=
  fun c hc => (h c hc).1

theorem digits_append {cs rest : List Char} (h : ∀ c ∈ cs, c.isDigit = true) (hstops : Stops rest) :
    digits (cs ++ rest) = values cs := by
  rw [digits, values, List.takeWhile_append_of_pos h]
  cases rest with
  | nil => simp
  | cons c rest => simp [hstops c rfl]

theorem afterDigits_append {cs rest : List Char} (h : ∀ c ∈ cs, c.isDigit = true)
    (hstops : Stops rest) : afterDigits (cs ++ rest) = rest := by
  rw [afterDigits, List.dropWhile_append_of_pos h]
  cases rest with
  | nil => rfl
  | cons c rest => simp [hstops c rfl]

theorem Digits.isEmpty_values {cs : List Char} (h : Digits cs) : (values cs).isEmpty = false := by
  rw [values, List.isEmpty_map, List.isEmpty_eq_false_iff]
  exact h.nonempty

theorem Digits.exists_cons {cs : List Char} (h : Digits cs) :
    ∃ c rest, cs = c :: rest ∧ c.isDigit = true := by
  obtain ⟨c, rest, rfl⟩ := List.exists_cons_of_ne_nil h.nonempty
  exact ⟨c, rest, rfl, h.isDigit c List.mem_cons_self⟩

theorem isDigit_toDigits (n : Nat) : ∀ c ∈ Nat.toDigits 10 n, c.isDigit = true :=
  fun _ => Nat.isDigit_of_mem_toDigits (by decide) (by decide)

/-- The digits of a number that is not zero do not begin with a zero. -/
theorem head_toDigits {n : Nat} (hn : 0 < n) {c : Char} {cs : List Char}
    (h : Nat.toDigits 10 n = c :: cs) : c ≠ '0' := by
  induction n using Nat.base_induction 10 (by decide) generalizing cs with
  | single m hm =>
    rw [Nat.toDigits_of_lt_base hm] at h
    obtain ⟨rfl, -⟩ := List.cons.inj h
    interval_cases m <;> decide
  | digit m k hk hm ih =>
    rw [← Nat.toDigits_append_toDigits (by decide) hm hk] at h
    obtain ⟨first, rest, hfirst⟩ := List.exists_cons_of_ne_nil (Nat.toDigits_ne_nil (n := m) (b := 10))
    rw [hfirst] at h
    obtain ⟨rfl, -⟩ := List.cons.inj h
    exact ih hm hfirst

/-! ### Values -/

theorem le_foldl_digits (ds : List Nat) (n : Nat) : n ≤ ds.foldl (fun n d => n * 10 + d) n := by
  induction ds generalizing n with
  | nil => exact Nat.le_refl n
  | cons d rest ih => exact Nat.le_trans (by omega) (ih (n * 10 + d))

/-- Digits whose number fits into a word are all taken up. -/
theorem leading_eq {ds : List Nat} {n : Nat}
    (h : ds.foldl (fun n d => n * 10 + d) n ≤ 0xffffffffffffffff) :
    leading ds n = (ds.foldl (fun n d => n * 10 + d) n, 0) := by
  induction ds generalizing n with
  | nil => rfl
  | cons d rest ih =>
    rw [leading, if_pos ((le_foldl_digits rest _).trans h)]
    exact ih h

theorem foldl_digits_toDigits (n : Nat) :
    ((Nat.toDigits 10 n).map fun c => c.toNat - 48).foldl (fun n d => n * 10 + d) 0 = n := by
  conv_rhs => rw [← Nat.ofDigitChars_ten_toDigits (n := n), Nat.ofDigitChars_eq_foldl]
  rw [List.foldl_map]
  simp only [Nat.mul_comm 10]
  rfl

theorem value?_ofNatural {n : Nat} (h : n ≤ 0xffffffffffffffff) :
    (ofNatural n).value? = some (.natural n) := by
  have hleading : leading (ofNatural n).whole 0 = (n, 0) := by
    rw [ofNatural, leading_eq] <;> rw [foldl_digits_toDigits]
    exact h
  rw [value?, hleading]
  rfl

/-! ### Texts -/

/-- The text of a whole part, which does not begin with a zero unless it is one. -/
inductive WholeText : List Nat → List Char → Prop
  | zero : WholeText [0] ['0']
  | digits {cs : List Char} (h : Digits cs) (hzero : cs.head? ≠ some '0') : WholeText (values cs) cs

/-- The text of a fraction. -/
inductive FractionText : List Nat → List Char → Prop
  | none : FractionText [] []
  | point {cs : List Char} (h : Digits cs) : FractionText (values cs) ('.' :: cs)

/-- The text of the sign of an exponent. -/
inductive SignText : Int → List Char → Prop
  | none : SignText 1 []
  | plus : SignText 1 ['+']
  | minus : SignText (-1) ['-']

/-- The text of an exponent. -/
inductive ExponentText : Option Int → List Char → Prop
  | none : ExponentText none []
  | letter {e : Char} {sign : Int} {mark cs : List Char} (he : e = 'e' ∨ e = 'E')
      (hsign : SignText sign mark) (h : Digits cs) :
    ExponentText (some (sign * ((values cs).foldl (fun n d => n * 10 + d) 0 : Nat))) (e :: (mark ++ cs))

/-- The text of a numeral. -/
inductive Text : Numeral → List Char → Prop
  | unsigned {whole fraction : List Nat} {exponent : Option Int} {ws fs es : List Char}
      (hwhole : WholeText whole ws) (hfraction : FractionText fraction fs)
      (hexponent : ExponentText exponent es) :
    Text ⟨false, whole, fraction, exponent⟩ (ws ++ (fs ++ es))
  | negative {whole fraction : List Nat} {exponent : Option Int} {ws fs es : List Char}
      (hwhole : WholeText whole ws) (hfraction : FractionText fraction fs)
      (hexponent : ExponentText exponent es) :
    Text ⟨true, whole, fraction, exponent⟩ ('-' :: (ws ++ (fs ++ es)))

/-! ### Scanning -/

variable {negative : Bool} {whole fraction : List Nat} {exponent : Option Int}
  {ws fs es rest : List Char}

theorem WholeText.exists_cons (h : WholeText whole ws) : ∃ c rest, ws = c :: rest ∧ c.isDigit = true := by
  cases h with
  | zero => exact ⟨_, _, rfl, rfl⟩
  | digits h => exact h.exists_cons

/-- A numeral begins with a sign or a digit. -/
theorem Text.exists_cons {l : Numeral} {cs : List Char} (h : Text l cs) :
    ∃ c rest, cs = c :: rest ∧ (c = '-' || c.isDigit) = true := by
  cases h with
  | negative => exact ⟨_, _, rfl, rfl⟩
  | unsigned hwhole =>
    obtain ⟨c, ws, rfl, hc⟩ := hwhole.exists_cons
    exact ⟨_, _, rfl, by rw [hc, Bool.or_true]⟩

theorem ExponentText.head (h : ExponentText exponent es) (hends : Ends rest) :
    ∀ c ∈ (es ++ rest).head?, c.isDigit = false ∧ c ≠ '.' := by
  cases h with
  | none => exact fun c hc => ⟨(hends c hc).1, (hends c hc).2.1⟩
  | letter he =>
    rintro _ ⟨⟩
    rcases he with rfl | rfl <;> decide

theorem FractionText.stops (h : FractionText fraction fs) (hexponent : ExponentText exponent es)
    (hends : Ends rest) : Stops (fs ++ (es ++ rest)) := by
  cases h with
  | none => exact fun c hc => (hexponent.head hends c hc).1
  | point =>
    rintro _ ⟨⟩
    decide

theorem scanExponent_text (h : ExponentText exponent es) (hends : Ends rest) :
    scanExponent ⟨negative, whole, fraction, none⟩ (es ++ rest) =
      .complete ⟨negative, whole, fraction, exponent⟩ rest := by
  cases h with
  | none =>
    cases rest with
    | nil => rfl
    | cons c rest =>
      obtain ⟨-, -, he, hE⟩ := hends c rfl
      unfold scanExponent
      exact if_neg (by simp [he, hE])
  | @letter e sign mark cs he hsign h =>
    have hletter : (e = 'e' || e = 'E') = true := by simpa using he
    have hdone : (if (digits (cs ++ rest)).isEmpty then Scan.broken (cs ++ rest).isEmpty
        else .complete ⟨negative, whole, fraction,
          some (sign * ((digits (cs ++ rest)).foldl (fun n d => n * 10 + d) 0 : Nat))⟩
            (afterDigits (cs ++ rest))) =
        .complete ⟨negative, whole, fraction,
          some (sign * ((values cs).foldl (fun n d => n * 10 + d) 0 : Nat))⟩ rest := by
      rw [digits_append h.isDigit hends.stops, afterDigits_append h.isDigit hends.stops,
        h.isEmpty_values]
      rfl
    cases hsign with
    | plus => exact (if_pos hletter).trans hdone
    | minus => exact (if_pos hletter).trans hdone
    | none =>
      obtain ⟨c, cs, rfl, hc⟩ := h.exists_cons
      rw [List.cons_append, List.nil_append, scanExponent, if_pos hletter]
      · exact hdone
      · exact fun more heq => absurd ((List.cons.inj heq).1 ▸ hc) (by decide)
      · exact fun more heq => absurd ((List.cons.inj heq).1 ▸ hc) (by decide)

theorem scanFraction_text (h : FractionText fraction fs) (hexponent : ExponentText exponent es)
    (hends : Ends rest) :
    scanFraction ⟨negative, whole, [], none⟩ (fs ++ (es ++ rest)) =
      .complete ⟨negative, whole, fraction, exponent⟩ rest := by
  have hhead := hexponent.head hends
  have hscan (fraction : List Nat) : scanExponent ⟨negative, whole, fraction, none⟩ (es ++ rest) =
      .complete ⟨negative, whole, fraction, exponent⟩ rest :=
    scanExponent_text hexponent hends
  cases h with
  | none =>
    rw [List.nil_append, scanFraction, hscan]
    exact fun more heq => (hhead '.' (by rw [heq]; rfl)).2 rfl
  | point h =>
    have hstops : Stops (es ++ rest) := fun c hc => (hhead c hc).1
    rw [List.cons_append, scanFraction]
    simp only [digits_append h.isDigit hstops, afterDigits_append h.isDigit hstops]
    rw [h.isEmpty_values]
    exact hscan _

theorem scanWhole_text (h : WholeText whole ws) (hfraction : FractionText fraction fs)
    (hexponent : ExponentText exponent es) (hends : Ends rest) :
    scanWhole negative (ws ++ (fs ++ (es ++ rest))) =
      .complete ⟨negative, whole, fraction, exponent⟩ rest := by
  have hstops := hfraction.stops hexponent hends
  cases h with
  | zero =>
    have hnone : digits (fs ++ (es ++ rest)) = [] :=
      digits_append (List.forall_mem_nil _) hstops
    rw [List.singleton_append, scanWhole, hnone]
    exact scanFraction_text hfraction hexponent hends
  | @digits cs h hzero =>
    obtain ⟨c, cs, rfl⟩ := List.exists_cons_of_ne_nil h.nonempty
    have hafter := afterDigits_append (List.forall_mem_cons.1 h.isDigit).2 hstops
    rw [List.cons_append, scanWhole, if_pos (h.isDigit c List.mem_cons_self), ← List.cons_append,
      digits_append h.isDigit hstops, hafter]
    · exact scanFraction_text hfraction hexponent hends
    · rintro rfl
      exact hzero rfl

/-- The text of a numeral is read as the numeral. -/
theorem scan_text {l : Numeral} {cs : List Char} (h : Text l cs) (hends : Ends rest) :
    scan (cs ++ rest) = .complete l rest := by
  cases h with
  | unsigned hwhole hfraction hexponent =>
    rw [List.append_assoc, List.append_assoc, scan]
    · exact scanWhole_text hwhole hfraction hexponent hends
    · obtain ⟨c, ws, rfl, hc⟩ := hwhole.exists_cons
      exact fun more heq => absurd ((List.cons.inj heq).1 ▸ hc) (by decide)
  | negative hwhole hfraction hexponent =>
    rw [List.cons_append, List.append_assoc, List.append_assoc, scan]
    exact scanWhole_text hwhole hfraction hexponent hends

theorem text_toDigits (n : Nat) : Text (ofNatural n) (Nat.toDigits 10 n) := by
  have hdigits : Digits (Nat.toDigits 10 n) := ⟨Nat.toDigits_ne_nil, isDigit_toDigits n⟩
  have hwhole : WholeText (ofNatural n).whole (Nat.toDigits 10 n) := by
    rcases Nat.eq_zero_or_pos n with rfl | hn
    · exact .zero
    · refine .digits hdigits fun hhead => ?_
      obtain ⟨cs, hcs⟩ := List.head?_eq_some_iff.1 hhead
      exact head_toDigits hn hcs rfl
  have htext := Text.unsigned hwhole .none .none
  rwa [List.append_nil, List.append_nil] at htext

end TimedBridge.Json.Numeral
