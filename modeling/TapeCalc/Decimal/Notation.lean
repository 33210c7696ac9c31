import TapeCalc.Decimal.Shortest

/-!
# How doubles are written

Three ways of writing a double share the digits of {lit}`shortest` or the exact value:
results and constants are written positionally whatever their size, values on the
stack always show a point or an exponent, and results with a requested precision
are rounded to that many places.

Main definitions:

- {lit}`DigitLayout.plain` and {lit}`DigitLayout.marked`: the two ways of writing all digits.
- {lit}`FloatText.write` and {lit}`FloatText.fixed`: the texts.
-/

namespace TapeCalc

/-- How the digits of a number are laid out. -/
structure DigitLayout where
  /-- Which exponents of the first digit call for an exponent in the text. -/
  scientific : Int → Bool
  /-- Whether a whole number written without exponent ends in a point and a zero. -/
  markWhole : Bool

namespace DigitLayout

/-- Positional whatever the size, and whole numbers without a point. -/
def plain : DigitLayout := ⟨fun _ => false, false⟩

/-- Positional from a ten-thousandth up to ten to the sixteenth, with an exponent beyond,
and whole numbers with a point. -/
def marked : DigitLayout := ⟨fun exponent => exponent < -4 || 15 < exponent, true⟩

end DigitLayout

namespace FloatText

/-- A run of zeros. -/
def zeros (count : Nat) : List Char := List.replicate count '0'

/-- The sign of a negative number. -/
def signText (negative : Bool) : List Char := if negative then ['-'] else []

/-- Digits with the point after a number of them, filled up with zeros on either side. -/
def positional (markWhole : Bool) (digits : List Char) (point : Int) : List Char :=
  if point ≤ 0 then
    '0' :: '.' :: (zeros (-point).toNat ++ digits)
  else if point < digits.length then
    digits.take point.toNat ++ '.' :: digits.drop point.toNat
  else
    digits ++ zeros (point.toNat - digits.length) ++ if markWhole then ['.', '0'] else []

/-- One digit before the point and the power of ten it stands at. -/
def scientific (digits : List Char) (exponent : Int) : List Char :=
  digits.take 1 ++ (if digits.length ≤ 1 then [] else '.' :: digits.drop 1) ++
    'e' :: (signText (exponent < 0) ++ Nat.toDigits 10 exponent.natAbs)

/-- A decimal in a layout. -/
def ofDecimal (layout : DigitLayout) (decimal : Decimal) : List Char :=
  let digits := Nat.toDigits 10 decimal.coefficient
  let point := decimal.exponent + digits.length
  if layout.scientific (point - 1) then scientific digits (point - 1)
  else positional layout.markWhole digits point

/-- A finite magnitude in a layout; zero is one digit. -/
def ofMagnitude (layout : DigitLayout) (magnitude : Nat) : List Char :=
  if magnitude = 0 then positional layout.markWhole ['0'] 1
  else ofDecimal layout (shortest magnitude)

/-- What is written of a double, given how a finite magnitude is written. -/
def ofClass (finite : Nat → List Char) : FloatClass → List Char
  | .nan => ['N', 'a', 'N']
  | .infinite negative => signText negative ++ ['i', 'n', 'f']
  | .finite negative magnitude => signText negative ++ finite magnitude

/-- The fewest digits that read back, in a layout. -/
def write (layout : DigitLayout) (x : Float) : String :=
  String.ofList (ofClass (ofMagnitude layout) (.of x))

/-- A finite magnitude rounded to a number of places, an exact half to the even neighbour. -/
def fixedMagnitude (places magnitude : Nat) : List Char :=
  let scaled := roundEven (Magnitude.units magnitude * Nat.pow 10 places) Magnitude.unitsPerOne
  let digits := Nat.toDigits 10 scaled
  let padded := zeros (places + 1 - digits.length) ++ digits
  let whole := padded.length - places
  padded.take whole ++ if places = 0 then [] else '.' :: padded.drop whole

/-- A double rounded to a number of places.  The sign stays even when all digits are zero. -/
def fixed (places : Nat) (x : Float) : String :=
  String.ofList (ofClass (fixedMagnitude places) (.of x))

end FloatText

/-- The text of a double in results and listings: all digits, never an exponent. -/
def plainText (x : Float) : String := FloatText.write .plain x

/-- The text of a double on the stack: always with a point or an exponent. -/
def markedText (x : Float) : String := FloatText.write .marked x

end TapeCalc
