import TapeCalc.Literal.Basic
import TapeCalc.Proofs.Decimal.Unsigned

/-!
# Values of literals in a text

A literal in a text starts with a digit or a point, so it has no sign of its own, and its
value is a double without a sign.

Main results:

- Theorem {lit}`Literal.run_of_opens`: a run holds the character that opens it.
- Theorem {lit}`Literal.read?_of_opens`: a run is read as a decimal without a sign.
- Theorem {lit}`Literal.hasNoSign_of_value?`: the value of a run is a double without a sign.
-/

namespace TapeCalc

namespace Literal

/-! ## Runs -/

/-- What a run takes of two characters and more. -/
theorem run_cons_cons (c d : Char) (rest : List Char) :
    (run (c :: d :: rest)).1 =
      if isExponentMark c && isSign d then c :: d :: (run rest).1
      else if inRun c then c :: (run (d :: rest)).1 else [] := by
  rw [run]
  split
  · rfl
  · split <;> rfl

/-- A run holds the character that opens it. -/
theorem run_of_opens {c : Char} (rest : List Char) (h : opens c = true) :
    ∃ more, (run (c :: rest)).1 = c :: more := by
  have inside : inRun c = true := by simp [inRun, h]
  cases rest with
  | nil => exact ⟨[], by rw [run, if_pos inside]⟩
  | cons d rest =>
    rw [run, if_pos inside]
    split
    · exact ⟨d :: (run rest).1, rfl⟩
    · exact ⟨(run (d :: rest)).1, rfl⟩

/-- A run is what the text begins with. -/
theorem take_length_run (text : List Char) : text.take (run text).1.length = (run text).1 := by
  calc
    text.take (run text).1.length = ((run text).1 ++ (run text).2).take (run text).1.length := by
      rw [run_append]
    _ = (run text).1 := List.take_left

/-- A run is no longer than the text. -/
theorem length_run_le (text : List Char) : (run text).1.length ≤ text.length := by
  have whole := congrArg List.length (run_append text)
  rw [List.length_append] at whole
  omega

/-! ## Values -/

/-- A character that opens a literal is a digit or a point. -/
theorem opens_iff {c : Char} : opens c = true ↔ ('0' ≤ c ∧ c ≤ '9') ∨ c = '.' := by
  simp [opens, isDigit]

/-- A character that opens a literal is no blank. -/
theorem isBlank_of_opens {c : Char} (h : opens c = true) : isBlank c = false := by
  rcases opens_iff.mp h with ⟨low, high⟩ | rfl
  · rw [Bool.eq_false_iff]
    intro blank
    simp only [isBlank, Bool.or_eq_true, beq_iff_eq] at blank
    rcases blank with rfl | rfl
    · revert low; decide
    · revert low; decide
  · rfl

/-- A character that opens a literal is no sign. -/
theorem isSign_of_opens {c : Char} (h : opens c = true) : isSign c = false := by
  rcases opens_iff.mp h with ⟨low, high⟩ | rfl
  · rw [Bool.eq_false_iff]
    intro sign
    simp only [isSign, Bool.or_eq_true, beq_iff_eq] at sign
    rcases sign with rfl | rfl
    · revert low; decide
    · revert low; decide
  · rfl

/-- A character that opens a literal is its own small letter. -/
theorem toLower_of_opens {c : Char} (h : opens c = true) : c.toLower = c := by
  have small : ¬ (c.val ≥ 'A'.val ∧ c.val ≤ 'Z'.val) := by
    rintro ⟨letter, _⟩
    rcases opens_iff.mp h with ⟨_, high⟩ | rfl
    · exact absurd (UInt32.le_trans letter high) (by decide)
    · revert letter; decide
  rw [Char.toLower, dif_neg small]

/-- Without the blanks at its end a literal still starts with what opens it. -/
theorem trimEnd_of_opens {c : Char} (rest : List Char) (h : opens c = true) :
    ∃ more, trimEnd (c :: rest) = c :: more := by
  have kept : [c].dropWhile isBlank = [c] := by
    rw [List.dropWhile_cons_of_neg (by simp [isBlank_of_opens h])]
  rw [trimEnd, List.reverse_cons, List.dropWhile_append]
  split
  · exact ⟨[], by rw [kept]; rfl⟩
  · exact ⟨(rest.reverse.dropWhile isBlank).reverse, by simp⟩

/-- A text that a literal opens is read as a decimal without a sign, and as nothing else. -/
theorem read?_of_opens {c : Char} (rest : List Char) (h : opens c = true) :
    FloatText.read? (c :: rest) = (Decimal.ofChars? (c :: rest)).map fun decimal =>
      ofSignMagnitude false (Magnitude.ofDecimal decimal) := by
  have unsigned : splitSign (c :: rest) = (false, c :: rest) := by
    rw [splitSign, if_neg (by simp [isSign_of_opens h])]
  have unnamed {first : Char} {name : List Char} (letter : opens first = false) :
      ((c :: rest).map Char.toLower == first :: name) = false := by
    rw [List.map_cons, toLower_of_opens h]
    apply beq_eq_false_iff_ne.mpr
    intro same
    rw [(List.cons.inj same).1, letter] at h
    cases h
  have finite : FloatText.isInfinityName (c :: rest) = false := by
    rw [FloatText.isInfinityName, unnamed (by decide), unnamed (by decide)]
    rfl
  have number : FloatText.isNanName (c :: rest) = false := by
    rw [FloatText.isNanName, unnamed (by decide)]
  rw [FloatText.read?, unsigned]
  dsimp only
  cases Decimal.ofChars? (c :: rest) with
  | some decimal => rfl
  | none => rw [finite, number]; rfl

/-- What is read from a text that a literal opens is a double without a sign. -/
theorem hasNoSign_of_read? {c : Char} {rest : List Char} {value : Float} (h : opens c = true)
    (read : FloatText.read? (c :: rest) = some value) : HasNoSign value := by
  rw [read?_of_opens rest h, Option.map_eq_some_iff] at read
  obtain ⟨decimal, _, rfl⟩ := read
  exact hasNoSign_ofSignMagnitude (Magnitude.ofDecimal_le _)

/-- The value of a text that a literal opens is a double without a sign. -/
theorem hasNoSign_of_value? {c : Char} {rest : List Char} {value : Float} (h : opens c = true)
    (read : value? (c :: rest) = some value) : HasNoSign value := by
  rw [value?] at read
  split at read
  · obtain ⟨more, trimmed⟩ := trimEnd_of_opens rest h
    rw [trimmed] at read
    exact hasNoSign_of_read? h read
  · cases read

end Literal

end TapeCalc
