/-!
Finite binary numbers of double precision, without their sign, in exact arithmetic. `ofRatio?` rounds
a fraction to the nearest of them, ties to even; products and quotients are exact and then rounded
once.
-/

namespace TimedBridge

/-- The number `significand * 2 ^ exponent`. Rounding yields a significand below `2 ^ 53` and an
exponent from -1074 to 971, the smallest exponent that the precision allows. -/
structure Binary64 where
  significand : Nat
  exponent : Int
  deriving DecidableEq, Repr

namespace Binary64

/-- The quotient rounded to the nearest whole number, a half to the even neighbour. -/
def roundDiv (num den : Nat) : Nat :=
  let q := num / den
  let twice := 2 * (num % den)
  if den < twice || twice = den && q % 2 = 1 then q + 1 else q

/-- The whole part of `num / den / 2 ^ e` and the fraction it is taken of. -/
def scaledBy (num den : Nat) (e : Int) : Nat × Nat :=
  (num <<< (-e).toNat, den <<< e.toNat)

/-- The number nearest to `num / den`, if it is not beyond the largest. -/
def ofRatio? (num den : Nat) : Option Binary64 :=
  let guess : Int := (num.log2 : Int) - den.log2 - 53
  let (n, d) := scaledBy num den guess
  let exponent := max (if n / d < 1 <<< 53 then guess else guess + 1) (-1074)
  let (n, d) := scaledBy num den exponent
  let significand := roundDiv n d
  let rounded : Binary64 :=
    if significand = 1 <<< 53 then ⟨1 <<< 52, exponent + 1⟩ else ⟨significand, exponent⟩
  if 971 < rounded.exponent then none else some rounded

/-- The number as a fraction. -/
def ratio (x : Binary64) : Nat × Nat :=
  (x.significand <<< x.exponent.toNat, 1 <<< (-x.exponent).toNat)

/-- Zero. -/
def zero : Binary64 := ⟨0, -1074⟩

/-- The product, if it is not beyond the largest number. -/
def mul? (x y : Binary64) : Option Binary64 :=
  ofRatio? (x.ratio.1 * y.ratio.1) (x.ratio.2 * y.ratio.2)

/-- The quotient, if it is not beyond the largest number. -/
def div? (x y : Binary64) : Option Binary64 :=
  ofRatio? (x.ratio.1 * y.ratio.2) (x.ratio.2 * y.ratio.1)

/-- The number nearest to a power of ten. -/
def powerOfTen? (n : Nat) : Option Binary64 := ofRatio? (Nat.pow 10 n) 1

/-- Divides by a power of ten in steps of at most 308 decimal places, each rounded. -/
def shiftDown (x : Binary64) (places : Nat) : Option Binary64 :=
  if places ≤ 308 then (powerOfTen? places).bind x.div?
  else if x.significand = 0 then some zero
  else do
    let step ← powerOfTen? 308
    let smaller ← x.div? step
    shiftDown smaller (places - 308)
  termination_by places

/-- Multiplies by a power of ten of either sign, as far as that is not beyond the largest number. -/
def shift (x : Binary64) (places : Int) : Option Binary64 :=
  if places < 0 then x.shiftDown (-places).toNat
  else if places ≤ 308 then (powerOfTen? places.toNat).bind x.mul?
  else if x.significand = 0 then some zero
  else none

end Binary64

end TimedBridge
