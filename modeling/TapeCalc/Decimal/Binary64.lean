/-!
# Doubles as exact numbers

A finite double is a whole multiple of the least positive one.  Its magnitude, the
encoding without the sign bit, is therefore kept as a natural number together with
the multiple it stands for, and every rounding question becomes a question about
natural numbers.

Main definitions:

- {lit}`roundEven`: the nearest whole number to a quotient, halves to the even side.
- {lit}`Magnitude.units`: a finite magnitude as a multiple of the least positive double.
- {lit}`Magnitude.ofRatio`: the magnitude nearest to a quotient.
- {lit}`Magnitude.ofDecimal`: the magnitude nearest to a decimal.
- {lit}`FloatClass.of`: sign and magnitude of a double, or what it is instead.
-/

namespace TapeCalc

/-- The nearest whole number to {lit}`num / den`; an exact half goes to the even neighbour. -/
def roundEven (num den : Nat) : Nat :=
  let quotient := num / den
  let twice := 2 * (num % den)
  if twice < den then quotient
  else if den < twice then quotient + 1
  else if quotient % 2 = 0 then quotient
  else quotient + 1

/-- The number of decimal digits of a natural number; zero has one. -/
def digitCount (n : Nat) : Nat := (Nat.toDigits 10 n).length

/-- The decimal {lit}`coefficient * 10 ^ exponent`. -/
structure Decimal where
  coefficient : Nat
  exponent : Int
deriving DecidableEq, Inhabited

/-! ## Magnitudes -/

namespace Magnitude

/-- The magnitude of infinity.  Smaller ones are finite, greater ones are not numbers. -/
def infinity : Nat := 0x7FF0000000000000

/-- How many of the least positive double make one. -/
def unitsPerOne : Nat := Nat.pow 2 1074

/-- How many fractions share an exponent field. -/
def fractionCount : Nat := 0x10000000000000

/-- A finite magnitude as a multiple of the least positive double. -/
def units (bits : Nat) : Nat :=
  let exponent := bits / fractionCount
  let fraction := bits % fractionCount
  if exponent = 0 then fraction
  else (fractionCount + fraction) * Nat.pow 2 (exponent - 1)

/-- The magnitude nearest to {lit}`num / den`.  An exact half goes to the even neighbour,
and what is too large for a finite double becomes infinity.

In units of the least positive double the quotient is scaled down until its whole
part has at most 53 bits; the number of places it moved is the exponent field.  A
rounding that carries into a 54th bit lands in the next exponent by itself. -/
def ofRatio (num den : Nat) : Nat :=
  let scaled := num * unitsPerOne
  let shift := (scaled / den).log2 - 52
  min infinity (shift * fractionCount + roundEven scaled (den * Nat.pow 2 shift))

/-- The magnitude nearest to a decimal.  Exponents no double reaches are settled
without raising ten to them. -/
def ofDecimal (decimal : Decimal) : Nat :=
  if decimal.coefficient = 0 then 0
  else if 400 < decimal.exponent then infinity
  else if decimal.exponent + digitCount decimal.coefficient < -400 then 0
  else if 0 ≤ decimal.exponent then
    ofRatio (decimal.coefficient * Nat.pow 10 decimal.exponent.toNat) 1
  else
    ofRatio decimal.coefficient (Nat.pow 10 (-decimal.exponent).toNat)

/-- No magnitude read from a quotient is beyond infinity. -/
theorem ofRatio_le (num den : Nat) : ofRatio num den ≤ infinity :=
  Nat.min_le_left _ _

/-- No magnitude read from a decimal is beyond infinity. -/
theorem ofDecimal_le (decimal : Decimal) : ofDecimal decimal ≤ infinity := by
  unfold ofDecimal
  split
  · exact Nat.zero_le _
  split
  · exact Nat.le_refl _
  split
  · exact Nat.zero_le _
  split <;> exact ofRatio_le _ _

end Magnitude

/-! ## Doubles -/

/-- What a double is. -/
inductive FloatClass where
  | nan
  | infinite (negative : Bool)
  | finite (negative : Bool) (magnitude : Nat)
deriving DecidableEq, Inhabited

/-- The weight of the sign bit. -/
def signWeight : Nat := 0x8000000000000000

/-- Sign and magnitude of a double, or what it is instead of a finite number. -/
def FloatClass.of (x : Float) : FloatClass :=
  let bits := x.toBits.toNat
  let negative := decide (signWeight ≤ bits)
  let magnitude := bits % signWeight
  if magnitude < Magnitude.infinity then .finite negative magnitude
  else if magnitude = Magnitude.infinity then .infinite negative
  else .nan

/-- The double with a sign and a magnitude. -/
def ofSignMagnitude (negative : Bool) (magnitude : Nat) : Float :=
  Float.ofBits (UInt64.ofNat (magnitude + if negative then signWeight else 0))

end TapeCalc
