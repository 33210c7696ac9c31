import TapeCalc.Proofs.Literal.Value
import TapeCalc.Proofs.Text.SameLetters

/-!
# Literals with the same letters

The only letters of a literal are its exponent marks, and of these both forms are read alike.
So texts with the same letters have runs with the same letters, and these are literals with the
same value or are refused both.

Main results:

- Theorem {lit}`SameLetters.run`: the runs of texts with the same letters.
- Theorem {lit}`SameLetters.isNumeric_eq`: both texts are literals or neither is.
- Theorem {lit}`SameLetters.value?_eq`: they have one value.
-/

namespace TapeCalc

namespace Literal

/-- The characters that open a literal have one form. -/
theorem oneFormed_opens : OneFormed opens := by
  intro c has
  rw [opens, Bool.or_eq_true, beq_iff_eq] at has
  rcases has with digit | rfl
  · exact oneFormed_isDigit c digit
  · decide

/-- Of two characters with one capital form both may stand in a run, or neither may. -/
theorem inRun_eq {c c' : Char} (letter : upper c' = upper c) : inRun c' = inRun c := by
  rw [inRun, inRun, oneFormed_opens.eq_of_upper_eq letter, isExponentMark_eq letter]

/-- What a run takes of one character. -/
theorem run_singleton (c : Char) : (run [c]).1 = if inRun c then [c] else [] := by
  rw [run]
  split <;> rfl

/-- The runs of texts with the same letters have the same letters. -/
theorem sameLetters_run {text text' : List Char} (same : SameLetters text text') :
    SameLetters (run text).1 (run text').1 := by
  fun_induction run text generalizing text' with
  | case1 =>
    cases same
    exact .nil
  | case2 c inside =>
    cases same with
    | cons letter others =>
      cases others
      rw [run_singleton, inRun_eq letter, if_pos inside]
      exact .cons letter .nil
  | case3 c outside =>
    cases same with
    | cons letter others =>
      cases others
      rw [run_singleton, inRun_eq letter, if_neg outside]
      exact .nil
  | case4 c d rest signed taken left ran ih =>
    cases same with
    | cons letter others =>
      cases others with
      | cons letter' others =>
        have inner := ih others
        rw [ran] at inner
        rw [run_cons_cons, isExponentMark_eq letter, oneFormed_isSign.eq_of_upper_eq letter',
          if_pos signed]
        exact .cons letter (.cons letter' inner)
  | case5 c d rest unsigned inside taken left ran ih =>
    cases same with
    | cons letter others =>
      have inner := ih others
      rw [ran] at inner
      cases others with
      | cons letter' others =>
        rw [run_cons_cons, isExponentMark_eq letter, oneFormed_isSign.eq_of_upper_eq letter',
          if_neg unsigned, inRun_eq letter, if_pos inside]
        exact .cons letter inner
  | case6 c d rest unsigned outside =>
    cases same with
    | cons letter others =>
      cases others with
      | cons letter' others =>
        rw [run_cons_cons, isExponentMark_eq letter, oneFormed_isSign.eq_of_upper_eq letter',
          if_neg unsigned, inRun_eq letter, if_neg outside]
        exact .nil

end Literal

namespace SameLetters

variable {text text' : List Char}

/-! ## Values -/

/-- Both texts have a minus sign in front, or neither has, and behind their signs they have the same
letters. -/
theorem splitSign (same : SameLetters text text') :
    (TapeCalc.splitSign text').1 = (TapeCalc.splitSign text).1 ∧
      SameLetters (TapeCalc.splitSign text).2 (TapeCalc.splitSign text').2 := by
  have minus : HasOneForm '-' := by decide
  cases same with
  | nil => exact ⟨rfl, .nil⟩
  | @cons c c' rest rest' letter others =>
    rw [TapeCalc.splitSign, TapeCalc.splitSign, oneFormed_isSign.eq_of_upper_eq letter]
    cases isSign c with
    | true => exact ⟨Bool.eq_iff_iff.mpr (by simpa using minus.eq_iff letter), others⟩
    | false => exact ⟨rfl, .cons letter others⟩

/-- What follows the digits of both texts. -/
theorem afterDigits? (same : SameLetters text text') :
    Option.Rel SameLetters (Literal.afterDigits? text) (Literal.afterDigits? text') := by
  have rest := same.dropWhile oneFormed_isDigit
  have point : HasOneForm '.' := by decide
  rw [Literal.afterDigits?, Literal.afterDigits?, same.takeWhile_eq oneFormed_isDigit]
  generalize text.dropWhile isDigit = left at rest ⊢
  generalize text'.dropWhile isDigit = left' at rest ⊢
  cases rest with
  | nil =>
    dsimp only
    split
    · exact .none
    · exact .some .nil
  | @cons c c' left left' letter others =>
    dsimp only
    rw [others.takeWhile_eq oneFormed_isDigit]
    simp only [point.eq_iff letter]
    split
    · split
      · exact .none
      · exact .some (others.dropWhile oneFormed_isDigit)
    · split
      · exact .none
      · exact .some (.cons letter others)

/-- What follows the exponents of both texts. -/
theorem afterExponent? (same : SameLetters text text') :
    Option.Rel SameLetters (Literal.afterExponent? text) (Literal.afterExponent? text') := by
  cases same with
  | nil => exact .some .nil
  | @cons c c' rest rest' letter others =>
    have digits := others.splitSign.2
    rw [Literal.afterExponent?, Literal.afterExponent?, isExponentMark_eq letter]
    dsimp only
    rw [digits.takeWhile_eq oneFormed_isDigit]
    split
    · split
      · exact .none
      · exact .some (digits.dropWhile oneFormed_isDigit)
    · exact .some (.cons letter others)

/-- Both texts are literals, or neither is. -/
theorem isNumeric_eq (same : SameLetters text text') :
    Literal.isNumeric text' = Literal.isNumeric text := by
  have digits := same.splitSign.2.afterDigits?
  rw [Literal.isNumeric, Literal.isNumeric]
  generalize Literal.afterDigits? (TapeCalc.splitSign text).2 = rest? at digits ⊢
  generalize Literal.afterDigits? (TapeCalc.splitSign text').2 = rest?' at digits ⊢
  cases digits with
  | none => rfl
  | @some rest rest' others =>
    have exponents := others.afterExponent?
    dsimp only
    generalize Literal.afterExponent? rest = blanks? at exponents ⊢
    generalize Literal.afterExponent? rest' = blanks?' at exponents ⊢
    cases exponents with
    | none => rfl
    | some blanks => exact blanks.all_eq oneFormed_isBlank

/-- Both texts without the blanks at their ends. -/
theorem trimEnd (same : SameLetters text text') :
    SameLetters (Literal.trimEnd text) (Literal.trimEnd text') :=
  (same.reverse.dropWhile oneFormed_isBlank).reverse

/-- Both texts go on with one exponent. -/
theorem exponent?_eq (same : SameLetters text text') :
    Decimal.exponent? text' = Decimal.exponent? text := by
  cases same with
  | nil => rfl
  | @cons c c' rest rest' letter others =>
    obtain ⟨sign, digits⟩ := others.splitSign
    rw [Decimal.exponent?, Decimal.exponent?]
    dsimp only
    rw [sign, isExponentMark_eq letter, digits.all_eq oneFormed_isDigit]
    cases all : (TapeCalc.splitSign rest).2.all isDigit with
    | false => simp only [Bool.and_false, Bool.false_eq_true, if_false]
    | true => rw [digits.eq_of_all oneFormed_isDigit all]

/-- Both texts go on with the same digits behind a point, and with the same letters behind these. -/
theorem fraction (same : SameLetters text text') :
    (Decimal.fraction text').1 = (Decimal.fraction text).1 ∧
      SameLetters (Decimal.fraction text).2 (Decimal.fraction text').2 := by
  have point : HasOneForm '.' := by decide
  cases same with
  | nil => exact ⟨rfl, .nil⟩
  | @cons c c' rest rest' letter others =>
    rw [Decimal.fraction, Decimal.fraction]
    simp only [point.eq_iff letter]
    split
    · exact ⟨others.takeWhile_eq oneFormed_isDigit, others.dropWhile oneFormed_isDigit⟩
    · exact ⟨rfl, .cons letter others⟩

/-- Both texts stand for one decimal. -/
theorem ofChars?_eq (same : SameLetters text text') :
    Decimal.ofChars? text' = Decimal.ofChars? text := by
  obtain ⟨part, rest⟩ := (same.dropWhile oneFormed_isDigit).fraction
  rw [Decimal.ofChars?, Decimal.ofChars?]
  dsimp only
  rw [same.takeWhile_eq oneFormed_isDigit, part, rest.exponent?_eq]

/-- Both texts have one value, if a literal opens them. -/
theorem value?_eq (same : SameLetters text text') {c : Char} {rest : List Char}
    (head : text = c :: rest) (opens : Literal.opens c = true) :
    Literal.value? text' = Literal.value? text := by
  have trimmed := same.trimEnd
  subst head
  obtain ⟨more, first⟩ := Literal.trimEnd_of_opens rest opens
  rw [first] at trimmed
  rw [Literal.value?, Literal.value?, same.isNumeric_eq, first]
  generalize Literal.trimEnd text' = short at trimmed ⊢
  cases trimmed with
  | cons letter others =>
    have opens' := opens
    rw [← Literal.oneFormed_opens.eq_of_upper_eq letter] at opens'
    rw [Literal.read?_of_opens _ opens, Literal.read?_of_opens _ opens',
      (SameLetters.cons letter others).ofChars?_eq]

end SameLetters

end TapeCalc
