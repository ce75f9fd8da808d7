import TimedBridge.Decimal.Binary64

/-!
JSON numerals. A numeral without a fraction and an exponent is a whole number if it fits into a word
of 64 bits, with a sign into one of 63; any other numeral is a binary number of double precision, of
which it keeps as many leading digits as fit into a word.
-/

namespace TimedBridge.Json

/-- The parts of a numeral as written. -/
structure Numeral where
  negative : Bool
  whole : List Nat
  /-- The digits after the point; empty when there is no point. -/
  fraction : List Nat
  exponent : Option Int
  deriving DecidableEq, Repr

/-- The value of a numeral. -/
inductive Number where
  | natural (n : Nat)
  /-- The number `-n`. -/
  | negative (n : Nat)
  | float (negative : Bool) (magnitude : Binary64)
  deriving DecidableEq, Repr

namespace Numeral

/-- Takes up digits as long as the number fits into a word; the second component counts those left
out. -/
def leading : List Nat → Nat → Nat × Nat
  | [], n => (n, 0)
  | d :: rest, n => if n * 10 + d ≤ 0xffffffffffffffff then leading rest (n * 10 + d)
    else (n, rest.length + 1)

/-- The value, unless it is beyond the largest number of double precision. -/
def value? (l : Numeral) : Option Number :=
  let (n, left) := leading l.whole 0
  let fits := !l.negative || 0 < n && n ≤ 0x8000000000000000
  if l.fraction.isEmpty && l.exponent.isNone && left = 0 && fits then
    some (if l.negative then .negative n else .natural n)
  else
    let (m, unused) := leading l.fraction n
    let places : Int := (left : Int) - (l.fraction.length - unused : Nat) + l.exponent.getD 0
    ((Binary64.ofRatio? m 1).bind (·.shift places)).map (.float l.negative)

/-- A numeral at the beginning of a text. -/
inductive Scan where
  /-- A numeral and the text behind it. -/
  | complete (l : Numeral) (rest : List Char)
  /-- A digit is missing; the flag tells whether the text ends there. -/
  | broken (atEnd : Bool)

/-- The digits at the beginning of a text. -/
def digits (cs : List Char) : List Nat := (cs.takeWhile Char.isDigit).map fun c => c.toNat - 48

/-- The text behind the digits at its beginning. -/
def afterDigits (cs : List Char) : List Char := cs.dropWhile Char.isDigit

/-- Reads the exponent of a numeral whose other parts have been read. -/
def scanExponent (l : Numeral) : List Char → Scan
  | [] => .complete l []
  | c :: rest =>
    if c = 'e' || c = 'E' then
      let (sign, rest) : Int × List Char := match rest with
        | '+' :: rest => (1, rest)
        | '-' :: rest => (-1, rest)
        | rest => (1, rest)
      let ds := digits rest
      if ds.isEmpty then .broken rest.isEmpty
      else
        let magnitude : Nat := ds.foldl (fun n d => n * 10 + d) 0
        .complete { l with exponent := some (sign * magnitude) } (afterDigits rest)
    else .complete l (c :: rest)

/-- Reads the fraction and the exponent of a numeral whose whole part has been read. -/
def scanFraction (l : Numeral) : List Char → Scan
  | '.' :: rest =>
    let ds := digits rest
    if ds.isEmpty then .broken rest.isEmpty
    else scanExponent { l with fraction := ds } (afterDigits rest)
  | rest => scanExponent l rest

/-- Reads the digits of a numeral. A zero is followed by no digit. -/
def scanWhole (negative : Bool) : List Char → Scan
  | [] => .broken true
  | '0' :: rest =>
    if (digits rest).isEmpty then scanFraction ⟨negative, [0], [], none⟩ rest else .broken false
  | c :: rest =>
    if c.isDigit then
      scanFraction ⟨negative, digits (c :: rest), [], none⟩ (afterDigits rest)
    else .broken false

/-- Reads a numeral. -/
def scan : List Char → Scan
  | '-' :: rest => scanWhole true rest
  | rest => scanWhole false rest

end Numeral

end TimedBridge.Json
