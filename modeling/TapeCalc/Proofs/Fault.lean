import TapeCalc.Fault
import TapeCalc.Proofs.Decimal.Notation
import TapeCalc.Proofs.Literal.Grammar

/-!
# Messages of faults

The message of a fault is its phrase, with its range and its detail behind it where it has them.
No phrase is the beginning of another one, a range starts otherwise than a detail, and numbers end
where a point or a parenthesis follows.  So a message can be taken apart from left to right in one
way only, whatever stands in the detail.

Main definitions:

- {lit}`Fault.ofParts`: a fault with a range and a detail, each of which may be missing.

Main results:

- Theorem {lit}`FaultCode.append_phrase_inj`: what a message begins with.
- Theorem {lit}`Span.append_render_inj`: a range in front of other characters.
- Theorem {lit}`Fault.message_injective`: faults with the same message are the same.
- Theorem {lit}`message_ofParts_eq_iff`: which parts lead to the same message.
-/

namespace TapeCalc

/-! ## Phrases -/

namespace FaultCode

/-- All codes, in the order of their numbers. -/
def all : List FaultCode :=
  [syntaxError, unterminatedComment, badNumberFormat, notRecognisable, expectingLeftParenthesis,
    expectingRightParenthesis, expressionTooLong, tooManyConstants, missingExpression,
    endOfExpressionExpected, tooDeeplyNested, divisionByZero, logOfNonPositive, sqrtOfNegative,
    complexPower, internalError, symbolTableFull, duplicateSymbol]

/-- These are all codes. -/
theorem mem_all (code : FaultCode) : code ∈ all := by
  cases code <;> decide

/-- No phrase is the beginning of the phrase of another code. -/
theorem eq_of_isPrefix_phrase {code code' : FaultCode}
    (front : code.phrase.toList <+: code'.phrase.toList) : code = code' := by
  have apart : ∀ code ∈ all, ∀ code' ∈ all,
      code.phrase.toList.isPrefixOf code'.phrase.toList = true → code = code' := by
    decide +kernel
  exact apart code (mem_all code) code' (mem_all code') (List.isPrefixOf_iff_prefix.mpr front)

/-- A phrase in front of other characters is the phrase of one code only. -/
theorem append_phrase_inj {code code' : FaultCode} {rest rest' : List Char}
    (same : code.phrase.toList ++ rest = code'.phrase.toList ++ rest') :
    code = code' ∧ rest = rest' := by
  have front : code.phrase.toList <+: code'.phrase.toList ++ rest' := ⟨rest, same⟩
  have codes : code = code' := by
    rcases List.prefix_or_prefix_of_prefix front (List.prefix_append _ rest') with shorter | longer
    · exact eq_of_isPrefix_phrase shorter
    · exact (eq_of_isPrefix_phrase longer).symm
  subst codes
  exact ⟨rfl, List.append_cancel_left same⟩

end FaultCode

/-! ## Ranges -/

/-- A number in front of characters that it cannot go on with is one number only. -/
theorem append_toDigits_inj {n n' : Nat} {rest rest' : List Char} (ends : Literal.EndsDigits rest)
    (ends' : Literal.EndsDigits rest')
    (same : Nat.toDigits 10 n ++ rest = Nat.toDigits 10 n' ++ rest') : n = n' ∧ rest = rest' := by
  have digits : Literal.IsDigits (Nat.toDigits 10 n) := allDigits_toDigits n
  have digits' : Literal.IsDigits (Nat.toDigits 10 n') := allDigits_toDigits n'
  have taken := congrArg (List.takeWhile isDigit) same
  have left := congrArg (List.dropWhile isDigit) same
  rw [digits.takeWhile_append ends, digits'.takeWhile_append ends'] at taken
  rw [digits.dropWhile_append ends, digits'.dropWhile_append ends'] at left
  exact ⟨toDigits_injective taken, left⟩

namespace Span

/-- A range is written as its ends with two points between them. -/
theorem toList_render (span : Span) : span.render.toList =
    Nat.toDigits 10 span.start ++ '.' :: '.' :: Nat.toDigits 10 span.stop := by
  simp [render]

/-- A range with a parenthesis behind it is one range only. -/
theorem append_render_inj {span span' : Span} {rest rest' : List Char}
    (same : span.render.toList ++ ')' :: rest = span'.render.toList ++ ')' :: rest') :
    span = span' ∧ rest = rest' := by
  have atPoint (more : List Char) : Literal.EndsDigits ('.' :: more) := by
    rintro _ ⟨rfl⟩
    rfl
  have atParenthesis (more : List Char) : Literal.EndsDigits (')' :: more) := by
    rintro _ ⟨rfl⟩
    rfl
  simp only [toList_render, List.append_assoc, List.cons_append] at same
  obtain ⟨starts, points⟩ := append_toDigits_inj (atPoint _) (atPoint _) same
  simp only [List.cons.injEq, true_and] at points
  obtain ⟨stops, closed⟩ := append_toDigits_inj (atParenthesis _) (atParenthesis _) points
  rcases span with ⟨start, stop⟩
  rcases span' with ⟨start', stop'⟩
  dsimp only at starts stops
  rw [starts, stops]
  exact ⟨rfl, (List.cons.inj closed).2⟩

end Span

/-! ## Messages -/

namespace Fault

/-- A range is shown in parentheses. -/
theorem toList_columnPart {fault : Fault} (located : fault.column ≠ .nowhere) :
    fault.columnPart.toList = " IN (".toList ++ (fault.column.render.toList ++ [')']) := by
  rw [columnPart, if_neg located]
  simp

/-- A fault that points nowhere shows no range. -/
theorem columnPart_of_nowhere {fault : Fault} (nowhere : fault.column = .nowhere) :
    fault.columnPart.toList = [] := by
  rw [columnPart, if_pos nowhere]
  rfl

/-- A detail is shown behind a semicolon. -/
theorem toList_detailPart (fault : Fault) : fault.detailPart.toList =
    if fault.detail = "" then [] else ';' :: ' ' :: fault.detail.toList := by
  unfold detailPart
  split
  · rfl
  · simp

/-- What follows a phrase without a range does not start with a blank. -/
theorem head?_detailPart (fault : Fault) : fault.detailPart.toList.head? ≠ some ' ' := by
  rw [toList_detailPart]
  split <;> simp

/-- Details that are shown alike are the same. -/
theorem detail_eq_of_detailPart_eq {fault fault' : Fault}
    (same : fault.detailPart.toList = fault'.detailPart.toList) :
    fault.detail = fault'.detail := by
  rw [toList_detailPart, toList_detailPart] at same
  by_cases none : fault.detail = ""
  · by_cases none' : fault'.detail = ""
    · rw [none, none']
    · simp [none, none'] at same
  · by_cases none' : fault'.detail = ""
    · simp [none, none'] at same
    · simp only [none, none', if_false, List.cons.injEq, true_and] at same
      exact String.toList_inj.mp same

/-- A range with a detail behind it starts with a blank, so it is not a detail alone. -/
theorem columnPart_append_ne {fault fault' : Fault} (located : fault.column ≠ .nowhere)
    (rest : List Char) : fault.columnPart.toList ++ rest ≠ fault'.detailPart.toList := by
  intro same
  apply head?_detailPart fault'
  rw [← same, toList_columnPart located]
  rfl

/-- Faults that show the same behind their phrases have the same range and the same detail. -/
theorem eq_of_parts_eq {fault fault' : Fault}
    (same : fault.columnPart.toList ++ fault.detailPart.toList =
      fault'.columnPart.toList ++ fault'.detailPart.toList) :
    fault.column = fault'.column ∧ fault.detail = fault'.detail := by
  by_cases nowhere : fault.column = .nowhere
  · rw [columnPart_of_nowhere nowhere, List.nil_append] at same
    by_cases nowhere' : fault'.column = .nowhere
    · rw [columnPart_of_nowhere nowhere', List.nil_append] at same
      exact ⟨nowhere.trans nowhere'.symm, detail_eq_of_detailPart_eq same⟩
    · exact absurd same.symm (columnPart_append_ne nowhere' _)
  · by_cases nowhere' : fault'.column = .nowhere
    · rw [columnPart_of_nowhere nowhere', List.nil_append] at same
      exact absurd same (columnPart_append_ne nowhere _)
    · rw [toList_columnPart nowhere, toList_columnPart nowhere'] at same
      simp only [List.append_assoc, List.singleton_append, List.append_cancel_left_eq] at same
      obtain ⟨columns, behind⟩ := Span.append_render_inj same
      exact ⟨columns, detail_eq_of_detailPart_eq behind⟩

/-- Faults with the same message are the same. -/
theorem message_injective : Function.Injective message := by
  intro fault fault' same
  have texts := congrArg String.toList same
  simp only [message, String.toList_append, List.append_assoc] at texts
  obtain ⟨codes, behind⟩ := FaultCode.append_phrase_inj texts
  obtain ⟨columns, details⟩ := eq_of_parts_eq behind
  rcases fault with ⟨code, column, detail⟩
  rcases fault' with ⟨code', column', detail'⟩
  dsimp only at codes columns details
  rw [codes, columns, details]

/-- A fault with a code, and with a range and a detail if they are given. -/
def ofParts (code : FaultCode) (column? : Option Span) (detail? : Option String) : Fault :=
  let located := column?.elim (plain code) (plain code).inColumn
  detail?.elim located located.withDetail

/-- A missing range is the range that stands for no place, and a missing detail is the empty one. -/
theorem ofParts_eq (code : FaultCode) (column? : Option Span) (detail? : Option String) :
    ofParts code column? detail? = ⟨code, column?.getD .nowhere, detail?.getD ""⟩ := by
  cases column? <;> cases detail? <;> rfl

end Fault

/-- Messages are unambiguous.  Two faults, whatever their ranges and their details are, have the
same message only if they have the same code, the same range and the same detail, where a missing
range counts as the range from zero to zero and a missing detail as the empty one. -/
theorem message_ofParts_eq_iff (code code' : FaultCode) (column? column'? : Option Span)
    (detail? detail'? : Option String) :
    (Fault.ofParts code column? detail?).message =
        (Fault.ofParts code' column'? detail'?).message ↔
      code = code' ∧ column?.getD ⟨0, 0⟩ = column'?.getD ⟨0, 0⟩ ∧
        detail?.getD "" = detail'?.getD "" := by
  rw [Fault.message_injective.eq_iff, Fault.ofParts_eq, Fault.ofParts_eq, Fault.mk.injEq]
  rfl

end TapeCalc
