/-!
# Faults and where they are found

A fault is what a failing stage reports: a code, the range of the source text it
points at, and an optional detail.  Codes are numbered, and the number decides
whether the text was at fault, the evaluation, or the calculator itself.

Main definitions:

- {lit}`Span`: a half-open range of character positions.
- {lit}`FaultCode`, {lit}`FaultCode.number`, {lit}`FaultCode.kind`.
- {lit}`Fault.message`: the one text every report of a fault shows.
-/

namespace TapeCalc

/-! ## Ranges of the source text -/

/-- A half-open range of character positions, counted from zero. -/
structure Span where
  start : Nat
  stop : Nat
deriving DecidableEq, Inhabited

namespace Span

/-- The range that stands for no place at all. -/
def nowhere : Span := ⟨0, 0⟩

/-- The empty range in front of a position. -/
def point (position : Nat) : Span := ⟨position, position⟩

/-- Both ends with two points between them. -/
def render (span : Span) : String :=
  toString span.start ++ ".." ++ toString span.stop

end Span

/-! ## Codes -/

/-- What can go wrong, from the first character read to the last instruction run. -/
inductive FaultCode where
  | syntaxError
  | unterminatedComment
  | badNumberFormat
  | notRecognisable
  | expectingLeftParenthesis
  | expectingRightParenthesis
  | expressionTooLong
  | tooManyConstants
  | missingExpression
  | endOfExpressionExpected
  | tooDeeplyNested
  | divisionByZero
  | logOfNonPositive
  | sqrtOfNegative
  | complexPower
  | internalError
  | symbolTableFull
  | duplicateSymbol
deriving DecidableEq, Inhabited

/-- Who is to blame: the text, the numbers it met, or the calculator. -/
inductive FaultKind where
  | parse
  | evaluation
  | internal
deriving DecidableEq, Inhabited

namespace FaultCode

/-- The number a code is known by. -/
def number : FaultCode → Nat
  | syntaxError => 2
  | unterminatedComment => 3
  | badNumberFormat => 4
  | notRecognisable => 5
  | expectingLeftParenthesis => 6
  | expectingRightParenthesis => 7
  | expressionTooLong => 8
  | tooManyConstants => 9
  | missingExpression => 10
  | endOfExpressionExpected => 11
  | tooDeeplyNested => 12
  | divisionByZero => 20
  | logOfNonPositive => 21
  | sqrtOfNegative => 22
  | complexPower => 23
  | internalError => 51
  | symbolTableFull => 52
  | duplicateSymbol => 53

/-- Numbers below twenty belong to the text, those below forty to the evaluation,
and the rest to the calculator itself. -/
def kind (code : FaultCode) : FaultKind :=
  if code.number < 20 then .parse
  else if code.number < 40 then .evaluation
  else .internal

/-- The phrase a report opens with. -/
def phrase : FaultCode → String
  | syntaxError => "SYNTAX ERROR"
  | unterminatedComment => "UNTERMINATED COMMENT"
  | badNumberFormat => "BAD NUMBER FORMAT"
  | notRecognisable => "NAME OR SYMBOL NOT RECOGNISABLE"
  | expectingLeftParenthesis => "EXPECTING LEFT PARENTHESIS"
  | expectingRightParenthesis => "EXPECTING RIGHT PARENTHESIS"
  | expressionTooLong => "EXPRESSION TOO LONG"
  | tooManyConstants => "TOO MANY CONSTANTS"
  | missingExpression => "MISSING EXPRESSION"
  | endOfExpressionExpected => "END OF EXPRESSION EXPECTED"
  | tooDeeplyNested => "TOO DEEPLY NESTED"
  | divisionByZero => "DIVISION BY ZERO"
  | logOfNonPositive => "LOGARITHM OF NON-POSITIVE VALUE"
  | sqrtOfNegative => "SQUARE ROOT OF NEGATIVE VALUE"
  | complexPower => "NON-INTEGER POWER OF NEGATIVE VALUE"
  | internalError => "INTERNAL ERROR"
  | symbolTableFull => "SYMBOL TABLE FULL"
  | duplicateSymbol => "SYMBOL TABLE ENTRY DUPLICATED"

end FaultCode

/-! ## Faults -/

/-- A reported fault.  {lit}`Span.nowhere` and the empty detail mean that there is none. -/
structure Fault where
  code : FaultCode
  column : Span
  detail : String
deriving DecidableEq, Inhabited

namespace Fault

/-- A fault that points nowhere and says nothing more. -/
def plain (code : FaultCode) : Fault := ⟨code, .nowhere, ""⟩

/-- The fault pointing at a range of the text. -/
def inColumn (fault : Fault) (column : Span) : Fault :=
  { fault with column }

/-- The fault with a detail added to its phrase. -/
def withDetail (fault : Fault) (detail : String) : Fault :=
  { fault with detail }

/-- A fault of the calculator itself, told apart by its detail. -/
def broken (detail : String) : Fault := ⟨.internalError, .nowhere, detail⟩

/-- The kind of a fault is the kind of its code. -/
def kind (fault : Fault) : FaultKind := fault.code.kind

/-- The range part of a message, empty when the fault points nowhere. -/
def columnPart (fault : Fault) : String :=
  if fault.column = .nowhere then "" else " IN (" ++ fault.column.render ++ ")"

/-- The detail part of a message, empty when there is no detail. -/
def detailPart (fault : Fault) : String :=
  if fault.detail = "" then "" else "; " ++ fault.detail

/-- The phrase, then the range, then the detail, each part only when present. -/
def message (fault : Fault) : String :=
  fault.code.phrase ++ fault.columnPart ++ fault.detailPart

/-- The message labelled as that of an error, between braces. -/
def labelled (fault : Fault) : String :=
  "Error \x7b " ++ fault.message ++ " \x7d"

end Fault

end TapeCalc
