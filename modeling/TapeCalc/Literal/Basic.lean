import TapeCalc.Decimal.Reader
import TapeCalc.Text.Blank

/-!
# Numeric literals

A literal is an optional sign, digits with an optional point, and an optional
exponent; blanks may follow it.  In a text a literal is read greedily: first the
longest run of characters that could belong to one, whatever their order, and then
the run as a whole is a literal or a fault.

Main definitions:

- {lit}`Literal.isNumeric`: whether a text is one literal.
- {lit}`Literal.value?`: the value of a literal.
- {lit}`Literal.run`: the characters a literal is read from.

Main results:

- Theorem {lit}`Literal.run_append`: a run and what follows it are the whole text.
-/

namespace TapeCalc

namespace Literal

/-! ## The grammar -/

/-- The text after the digits and the point of a literal, if there is a digit among them. -/
def afterDigits? (text : List Char) : Option (List Char) :=
  let whole := text.takeWhile isDigit
  match text.dropWhile isDigit with
  | [] => if whole.isEmpty then none else some []
  | c :: rest =>
    if c = '.' then
      if whole.isEmpty && (rest.takeWhile isDigit).isEmpty then none
      else some (rest.dropWhile isDigit)
    else if whole.isEmpty then none
    else some (c :: rest)

/-- The text after an exponent.  There need not be one, but a mark without digits is refused. -/
def afterExponent? : List Char → Option (List Char)
  | [] => some []
  | c :: rest =>
    if isExponentMark c then
      let digits := (splitSign rest).2
      if (digits.takeWhile isDigit).isEmpty then none else some (digits.dropWhile isDigit)
    else some (c :: rest)

/-- Whether a text is one literal, with blanks after it at most. -/
def isNumeric (text : List Char) : Bool :=
  match afterDigits? (splitSign text).2 with
  | none => false
  | some rest =>
    match afterExponent? rest with
    | none => false
    | some rest => rest.all isBlank

/-- A text without the blanks at its end. -/
def trimEnd (text : List Char) : List Char := (text.reverse.dropWhile isBlank).reverse

/-- The value of a text that is one literal. -/
def value? (text : List Char) : Option Float :=
  if isNumeric text then FloatText.read? (trimEnd text) else none

/-! ## Runs -/

/-- Whether a character opens a literal. -/
def opens (c : Char) : Bool := isDigit c || c == '.'

/-- Whether a character may stand anywhere in a run. -/
def inRun (c : Char) : Bool := opens c || isExponentMark c

/-- The longest run of digits, points and exponent marks, and of signs that stand directly
behind an exponent mark; and the text that follows it. -/
def run : List Char → List Char × List Char
  | [] => ([], [])
  | [c] => if inRun c then ([c], []) else ([], [c])
  | c :: d :: rest =>
    if isExponentMark c && isSign d then
      let (taken, left) := run rest
      (c :: d :: taken, left)
    else if inRun c then
      let (taken, left) := run (d :: rest)
      (c :: taken, left)
    else ([], c :: d :: rest)

/-- A run and what follows it are the whole text. -/
theorem run_append (text : List Char) : (run text).1 ++ (run text).2 = text := by
  fun_induction run text <;> simp_all

end Literal

end TapeCalc
