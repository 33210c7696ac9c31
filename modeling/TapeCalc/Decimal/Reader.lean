import TapeCalc.Decimal.Binary64

/-!
# Reading doubles

A decimal text is read as the nearest double.  The text has an optional sign, then
digits with an optional point, at least one digit on either side of it, and an
optional exponent; or it names infinity or the value that is not a number.

Main definitions:

- {lit}`Decimal.ofChars?`: a decimal without sign.
- {lit}`FloatText.read?`: a double.
-/

namespace TapeCalc

/-- Whether a character is one of the ten decimal digits. -/
def isDigit (c : Char) : Bool := '0' ≤ c && c ≤ '9'

/-- Whether a character is a sign. -/
def isSign (c : Char) : Bool := c == '+' || c == '-'

/-- Whether a character opens an exponent. -/
def isExponentMark (c : Char) : Bool := c == 'e' || c == 'E'

/-- The number a run of digits stands for. -/
def digitsValue (digits : List Char) : Nat :=
  digits.foldl (fun value c => 10 * value + (c.toNat - '0'.toNat)) 0

/-- Whether a text opens with a minus sign, and the text after its sign if it has one. -/
def splitSign : List Char → Bool × List Char
  | [] => (false, [])
  | c :: rest => if isSign c then (c == '-', rest) else (false, c :: rest)

namespace Decimal

/-- What follows the digits of a number: nothing, or an exponent with at least one digit. -/
def exponent? : List Char → Option Int
  | [] => some 0
  | c :: rest =>
    let (negative, digits) := splitSign rest
    if isExponentMark c && !digits.isEmpty && digits.all isDigit then
      some (if negative then -(digitsValue digits : Int) else digitsValue digits)
    else none

/-- The digits after a point, if the text goes on with one, and what follows them. -/
def fraction : List Char → List Char × List Char
  | [] => ([], [])
  | c :: rest =>
    if c = '.' then (rest.takeWhile isDigit, rest.dropWhile isDigit) else ([], c :: rest)

/-- The decimal a text without sign stands for. -/
def ofChars? (text : List Char) : Option Decimal :=
  let whole := text.takeWhile isDigit
  let (part, rest) := fraction (text.dropWhile isDigit)
  if whole.isEmpty && part.isEmpty then none
  else
    match exponent? rest with
    | none => none
    | some exponent => some ⟨digitsValue (whole ++ part), exponent - part.length⟩

end Decimal

namespace FloatText

/-- The names of infinity. -/
def isInfinityName (text : List Char) : Bool :=
  let lower := text.map Char.toLower
  lower == ['i', 'n', 'f'] || lower == ['i', 'n', 'f', 'i', 'n', 'i', 't', 'y']

/-- The name of the value that is not a number. -/
def isNanName (text : List Char) : Bool := text.map Char.toLower == ['n', 'a', 'n']

/-- The double a text stands for, if any. -/
def read? (text : List Char) : Option Float :=
  let (negative, body) := splitSign text
  match Decimal.ofChars? body with
  | some decimal => some (ofSignMagnitude negative (Magnitude.ofDecimal decimal))
  | none =>
    if isInfinityName body then some (ofSignMagnitude negative Magnitude.infinity)
    else if isNanName body then some (Float.ofBits 0x7FF8000000000000)
    else none

end FloatText

end TapeCalc
