import TapeCalc.Decimal.Binary64

/-!
# The fewest digits that read back

A double is written with the fewest decimal digits that are read as that same
double, and with the nearest such digits when there is a choice.

For each number of digits, the two decimals with so many digits that enclose the
value are tried.  If any decimal with so many digits reads back, one of these two
does, because what reads back is an interval around the value.

Main definitions:

- {lit}`shortest`: the digits of a finite magnitude other than zero.

Main results:

- Theorem {lit}`readsAs_of_nearestOfLength?`: no digits are chosen that read as another double.
-/

namespace TapeCalc

/-- The power of ten just above {lit}`num / den`: the quotient is at least a tenth of
{lit}`10 ^ pointPosition` and less than the whole of it. -/
def pointPosition (num den : Nat) : Int :=
  if den ≤ num then digitCount (num / den)
  else 1 - digitCount ((den - 1) / num)

/-- Whether a decimal is read as a given magnitude. -/
def Decimal.readsAs (decimal : Decimal) (bits : Nat) : Bool :=
  Magnitude.ofDecimal decimal == bits

/-- Of two decimals around a magnitude the one that reads back; when both do, the one below
if it is the nearer, and the one above otherwise. -/
def choose? (bits : Nat) (nearerBelow : Bool) (below above : Decimal) : Option Decimal :=
  match below.readsAs bits, above.readsAs bits with
  | true, true => some (if nearerBelow then below else above)
  | true, false => some below
  | false, true => some above
  | false, false => none

/-- The best decimal of a number of digits that reads back, if there is one.  Of two
the nearer wins, and the greater when both are equally near. -/
def nearestOfLength? (bits length : Nat) : Option Decimal :=
  let num := Magnitude.units bits
  let exponent := pointPosition num Magnitude.unitsPerOne - length
  let scaledNum := num * Nat.pow 10 (-exponent).toNat
  let scaledDen := Magnitude.unitsPerOne * Nat.pow 10 exponent.toNat
  let quotient := scaledNum / scaledDen
  choose? bits (2 * (scaledNum % scaledDen) < scaledDen) ⟨quotient, exponent⟩
    ⟨quotient + 1, exponent⟩

/-- The decimal chosen reads back. -/
theorem readsAs_of_choose? {bits : Nat} {nearerBelow : Bool} {below above decimal : Decimal}
    (h : choose? bits nearerBelow below above = some decimal) : decimal.readsAs bits = true := by
  unfold choose? at h
  split at h
  · rename_i readsBelow readsAbove
    injection h with same
    rw [← same]
    split
    · exact readsBelow
    · exact readsAbove
  · rename_i readsBelow _
    injection h with same
    exact same ▸ readsBelow
  · rename_i _ readsAbove
    injection h with same
    exact same ▸ readsAbove
  · cases h

/-- The best decimal of a number of digits reads back. -/
theorem readsAs_of_nearestOfLength? {bits length : Nat} {decimal : Decimal}
    (h : nearestOfLength? bits length = some decimal) : decimal.readsAs bits = true :=
  readsAs_of_choose? h

/-- All digits of a finite magnitude: one unit is {lit}`5 ^ 1074 / 10 ^ 1074`. -/
def exactDecimal (bits : Nat) : Decimal :=
  ⟨Magnitude.units bits * Nat.pow 5 1074, -1074⟩

/-- A decimal without the zeros at the end of its coefficient. -/
def Decimal.trim (decimal : Decimal) : Decimal :=
  if decimal.coefficient = 0 then ⟨0, 0⟩
  else if decimal.coefficient % 10 = 0 then
    Decimal.trim ⟨decimal.coefficient / 10, decimal.exponent + 1⟩
  else decimal
termination_by decimal.coefficient
decreasing_by
  exact Nat.div_lt_self (Nat.pos_of_ne_zero (by assumption)) (by decide)

/-- The fewest digits that read back as a magnitude.  Seventeen are enough for every
double, and the exact value stands behind them. -/
def shortest (bits : Nat) : Decimal :=
  let found := (List.range 17).findSome? fun i => nearestOfLength? bits (i + 1)
  (found.getD (exactDecimal bits)).trim

end TapeCalc
