import TapeCalc.Literal.Basic

/-!
# The grammar of literals

A literal is an optional sign, digits with an optional point, an optional exponent, and
blanks.  Here the grammar stands as a predicate on texts, part by part, without any order
in which a text would be read.
-/

namespace TapeCalc

namespace Literal

/-- Nothing, or one sign. -/
def IsSignPart (text : List Char) : Prop := text = [] ∨ ∃ c, isSign c = true ∧ text = [c]

/-- Decimal digits, possibly none. -/
def IsDigits (text : List Char) : Prop := ∀ c ∈ text, isDigit c = true

/-- Digits with an optional point, and at least one digit on either side of it. -/
def IsMantissa (text : List Char) : Prop :=
  (IsDigits text ∧ text ≠ []) ∨
    ∃ whole part, IsDigits whole ∧ IsDigits part ∧ (whole ≠ [] ∨ part ≠ []) ∧
      text = whole ++ '.' :: part

/-- Nothing, or an exponent mark, an optional sign, and at least one digit. -/
def IsExponentPart (text : List Char) : Prop :=
  text = [] ∨
    ∃ mark sign digits, isExponentMark mark = true ∧ IsSignPart sign ∧ IsDigits digits ∧
      digits ≠ [] ∧ text = mark :: (sign ++ digits)

/-- An unsigned literal without blanks behind it. -/
def IsUnsigned (text : List Char) : Prop :=
  ∃ mantissa exponent, IsMantissa mantissa ∧ IsExponentPart exponent ∧
    text = mantissa ++ exponent

/-- A literal with an optional sign in front of it and blanks behind it. -/
def IsNumeral (text : List Char) : Prop :=
  ∃ sign body blanks, IsSignPart sign ∧ IsUnsigned body ∧
    (∀ c ∈ blanks, isBlank c = true) ∧ text = sign ++ body ++ blanks

end Literal

end TapeCalc
