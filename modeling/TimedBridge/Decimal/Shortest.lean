import TimedBridge.Decimal.Binary64

/-!
The shortest decimal that reads back as a given binary number: the point nearest to the number on the
coarsest decimal grid that has a point closer to it than to its neighbours.
-/

namespace TimedBridge

/-- The decimal `digits * 10 ^ place`. -/
structure ShortDecimal where
  digits : Nat
  place : Int
  deriving DecidableEq, Repr

namespace ShortDecimal

/-- The numbers that round to `x` lie between the first two fractions, whose ends belong to them iff
the flag is set; the third is `x`. All have the last component as their denominator. -/
def interval (x : Binary64) : Nat × Nat × Nat × Nat × Bool :=
  let below := if x.significand = 1 <<< 52 && -1074 < x.exponent then 1 else 2
  let factor := 1 <<< (x.exponent - 2).toNat
  ((4 * x.significand - below) * factor, (4 * x.significand + 2) * factor,
    4 * x.significand * factor, 1 <<< (2 - x.exponent).toNat, x.significand % 2 = 0)

/-- The point of the grid `10 ^ place` nearest to `x`, if one of its neighbours there rounds to
`x`. -/
def onGrid? (x : Binary64) (place : Int) : Option ShortDecimal :=
  let (low, high, value, den, closed) := interval x
  let step := Nat.pow 10 place.toNat * den
  let scale := Nat.pow 10 (-place).toNat
  let hits (c : Nat) : Bool :=
    let point := c * step
    0 < c && if closed then low * scale ≤ point && point ≤ high * scale
      else low * scale < point && point < high * scale
  let floor := value * scale / step
  let above := (floor + 1) * step - value * scale
  let under := value * scale - floor * step
  match hits floor, hits (floor + 1) with
  | true, true =>
    let up := above < under || above = under && floor % 2 = 1
    some ⟨if up then floor + 1 else floor, place⟩
  | true, false => some ⟨floor, place⟩
  | false, true => some ⟨floor + 1, place⟩
  | false, false => none

/-- Searches the grids from `10 ^ (n - 324)` down to `10 ^ (-324)`. -/
def search (x : Binary64) : Nat → ShortDecimal
  | 0 => (onGrid? x (-324)).getD ⟨0, 0⟩
  | n + 1 => (onGrid? x (n + 1 - 324 : Int)).getD (search x n)

/-- The shortest decimal that reads back as `x`. -/
def ofBinary (x : Binary64) : ShortDecimal :=
  if x.significand = 0 then ⟨0, 0⟩ else search x 633

/-- The text of a decimal: positional with a fraction from 0.00001 up to below 10^16, and otherwise
with one digit before the point and a signed exponent. -/
def text (d : ShortDecimal) : String :=
  let digits := Nat.toDigits 10 d.digits
  let leading := d.place + digits.length - 1
  let zeros (n : Int) := List.replicate n.toNat '0'
  if d.digits = 0 then "0.0"
  else if -5 ≤ leading && leading ≤ 15 then
    if 0 ≤ d.place then String.ofList (digits ++ zeros d.place) ++ ".0"
    else if 0 ≤ leading then
      let whole := leading.toNat + 1
      String.ofList (digits.take whole ++ '.' :: digits.drop whole)
    else "0." ++ String.ofList (zeros (-leading - 1) ++ digits)
  else
    let fraction := digits.drop 1
    let mark := if leading < 0 then "e-" else "e+"
    String.ofList (digits.take 1 ++ if fraction.isEmpty then [] else '.' :: fraction) ++ mark ++
      toString leading.natAbs

example : ofBinary ⟨1, -1074⟩ = ⟨5, -324⟩ := by decide +kernel

example : ofBinary ⟨3602879701896397, -55⟩ = ⟨1, -1⟩ := by decide +kernel

example : text ⟨1, 15⟩ = "1000000000000000.0" := by decide +kernel

example : text ⟨18446744073709552, 3⟩ = "1.8446744073709552e+19" := by decide +kernel

example : text ⟨1, -5⟩ = "0.00001" := by decide +kernel

example : text ⟨25, -7⟩ = "2.5e-6" := by decide +kernel

end ShortDecimal

end TimedBridge
