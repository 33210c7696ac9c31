import TapeCalc.Decimal.Reader
import TapeCalc.Gap
import TapeCalc.Proofs.Text.Spelling

/-!
# Texts with the same letters

Two texts have the same letters if their characters have pairwise the same capital form.  Then
they have blanks, comment marks, digits, points and signs at the same places, because each of
these characters has one form only.  They have exponent marks at the same places too, because
no other letter has the capital form of these.

Main definitions:

- {lit}`SameLetters`: texts with the same letters.
- {lit}`OneFormed`: a property of characters with one form.

Main results:

- Theorem {lit}`sameLetters_iff`: texts with the same letters have the same capital letters.
- Theorem {lit}`isExponentMark_iff`: the exponent marks are the forms of one letter.
- Theorems {lit}`SameLetters.takeWhile_eq` and {lit}`SameLetters.dropWhile`: what such a property
  takes from both texts, and what it leaves.
-/

namespace TapeCalc

/-! ## Letters in pairs -/

/-- Texts whose characters have pairwise the same capital form. -/
inductive SameLetters : List Char → List Char → Prop where
  | nil : SameLetters [] []
  | cons {c c' : Char} {rest rest' : List Char} (letter : upper c' = upper c)
      (same : SameLetters rest rest') : SameLetters (c :: rest) (c' :: rest')

/-- Texts with the same letters have the same capital letters, one by one. -/
theorem sameLetters_iff {text text' : List Char} :
    SameLetters text text' ↔ text'.map upper = text.map upper := by
  constructor
  · intro same
    induction same with
    | nil => rfl
    | cons letter _ ih => rw [List.map_cons, List.map_cons, letter, ih]
  · intro forms
    induction text generalizing text' with
    | nil =>
      rw [List.map_nil, List.map_eq_nil_iff] at forms
      rw [forms]
      exact .nil
    | cons c rest ih =>
      rw [List.map_cons] at forms
      obtain ⟨c', rest', rfl, letter, others⟩ := List.map_eq_cons_iff.mp forms
      exact .cons letter (ih others)

namespace SameLetters

variable {text text' : List Char}

/-- A text has the same letters as itself. -/
theorem refl (text : List Char) : SameLetters text text := sameLetters_iff.mpr rfl

/-- Having the same letters goes both ways. -/
theorem symm (same : SameLetters text text') : SameLetters text' text :=
  sameLetters_iff.mpr (sameLetters_iff.mp same).symm

/-- Texts with the same letters have one length. -/
theorem length_eq (same : SameLetters text text') : text'.length = text.length := by
  have lengths := congrArg List.length (sameLetters_iff.mp same)
  rwa [List.length_map, List.length_map] at lengths

/-- What is left of both behind a number of characters. -/
theorem drop (same : SameLetters text text') (length : Nat) :
    SameLetters (text.drop length) (text'.drop length) := by
  rw [sameLetters_iff, List.map_drop, List.map_drop, sameLetters_iff.mp same]

/-- Both from their ends. -/
theorem reverse (same : SameLetters text text') : SameLetters text.reverse text'.reverse := by
  rw [sameLetters_iff, List.map_reverse, List.map_reverse, sameLetters_iff.mp same]

/-- If one is empty, so is the other. -/
theorem eq_nil_iff (same : SameLetters text text') : text' = [] ↔ text = [] := by
  rw [← List.length_eq_zero_iff, ← List.length_eq_zero_iff, same.length_eq]

end SameLetters

/-- Texts with the same letters start with spellings that have the same letters. -/
theorem startsWith_congr {spelling spelling' text text' : List Char}
    (spellings : SameLetters spelling spelling') (texts : SameLetters text text') :
    startsWith spelling' text' = startsWith spelling text := by
  induction spellings generalizing text text' with
  | nil => rfl
  | cons letter _ ih =>
    cases texts with
    | nil => rfl
    | cons letter' texts =>
      rw [startsWith, startsWith, sameLetter, sameLetter, letter, letter', ih texts]

/-- A spelling that is as long as a text is found at its start if and only if both have the same
letters. -/
theorem startsWith_iff_sameLetters {spelling text : List Char}
    (length : spelling.length = text.length) :
    startsWith spelling text = true ↔ SameLetters spelling text := by
  constructor
  · intro starts
    induction spelling generalizing text with
    | nil =>
      rw [List.length_eq_zero_iff.mp length.symm]
      exact .nil
    | cons s spelling ih =>
      cases text with
      | nil => cases length
      | cons c text =>
        simp only [startsWith, sameLetter, Bool.and_eq_true, beq_iff_eq] at starts
        exact .cons starts.1 (ih (Nat.succ.inj length) starts.2)
  · intro same
    induction same with
    | nil => rfl
    | cons letter same ih => simp [startsWith, sameLetter, letter, ih same.length_eq.symm]

/-- Spellings with the same letters are the same as other spellings. -/
theorem sameSpelling_congr {spelling spelling' other other' : List Char}
    (spellings : SameLetters spelling spelling') (others : SameLetters other other') :
    sameSpelling spelling' other' = sameSpelling spelling other := by
  simp only [sameSpelling, List.flatMap_def, sameLetters_iff.mp spellings,
    sameLetters_iff.mp others]

/-! ## Characters with one form -/

/-- A property that only characters with one form have. -/
def OneFormed (property : Char → Bool) : Prop :=
  ∀ c, property c = true → HasOneForm c

/-- Digits have one form. -/
theorem oneFormed_isDigit : OneFormed isDigit := by
  intro c digit
  have first : c.toNat < 0x80 := by
    rw [isDigit, Bool.and_eq_true, decide_eq_true_eq, decide_eq_true_eq] at digit
    have high : c.toNat ≤ '9'.toNat := UInt32.le_iff_toNat_le.mp digit.2
    exact Nat.lt_of_le_of_lt high (by decide)
  exact @of_first (fun c => isDigit c = true → HasOneForm c) (by decide) c first digit

/-- Blanks have one form. -/
theorem oneFormed_isBlank : OneFormed isBlank := by
  intro c blank
  simp only [isBlank, Bool.or_eq_true, beq_iff_eq] at blank
  rcases blank with rfl | rfl <;> decide

/-- Signs have one form. -/
theorem oneFormed_isSign : OneFormed isSign := by
  intro c sign
  simp only [isSign, Bool.or_eq_true, beq_iff_eq] at sign
  rcases sign with rfl | rfl <;> decide

/-- Of two characters with one capital form both have such a property, or neither has. -/
theorem OneFormed.eq_of_upper_eq {property : Char → Bool} (plain : OneFormed property) {c c' : Char}
    (letter : upper c' = upper c) : property c' = property c := by
  refine Bool.eq_iff_iff.mpr ⟨fun has => ?_, fun has => ?_⟩
  · rwa [(plain c' has).eq_of_upper_eq_upper letter.symm]
  · rwa [(plain c has).eq_of_upper_eq_upper letter]

/-- Of two characters with one capital form both are a character with one form, or neither is. -/
theorem HasOneForm.eq_iff {d : Char} (plain : HasOneForm d) {c c' : Char}
    (letter : upper c' = upper c) : c' = d ↔ c = d := by
  constructor
  · rintro rfl
    exact plain.eq_of_upper_eq_upper letter.symm
  · rintro rfl
    exact plain.eq_of_upper_eq_upper letter

/-- The exponent marks are the characters with one capital form. -/
theorem isExponentMark_iff {c : Char} : isExponentMark c = true ↔ upper c = ['E'] := by
  constructor
  · intro mark
    simp only [isExponentMark, Bool.or_eq_true, beq_iff_eq] at mark
    rcases mark with rfl | rfl <;> rfl
  · intro form
    obtain ⟨first, capital⟩ := first_of_upper_eq (by decide) (by decide) (by decide) form
    exact @of_first (fun c => c.toUpper = 'E' → isExponentMark c = true) (by decide) c first capital

/-- Of two characters with one capital form both are exponent marks, or neither is. -/
theorem isExponentMark_eq {c c' : Char} (letter : upper c' = upper c) :
    isExponentMark c' = isExponentMark c :=
  Bool.eq_iff_iff.mpr (by rw [isExponentMark_iff, isExponentMark_iff, letter])

/-! ## Characters in a row -/

namespace SameLetters

variable {text text' : List Char} {property : Char → Bool}

/-- Characters in a row with such a property are the same in both texts. -/
theorem takeWhile_eq (same : SameLetters text text') (plain : OneFormed property) :
    text'.takeWhile property = text.takeWhile property := by
  induction same with
  | nil => rfl
  | @cons c c' rest rest' letter _ ih =>
    rw [List.takeWhile_cons, List.takeWhile_cons, plain.eq_of_upper_eq letter, ih]
    cases has : property c with
    | false => rfl
    | true => rw [(plain c has).eq_of_upper_eq_upper letter]

/-- What follows them has the same letters. -/
theorem dropWhile (same : SameLetters text text') (plain : OneFormed property) :
    SameLetters (text.dropWhile property) (text'.dropWhile property) := by
  induction same with
  | nil => exact .nil
  | @cons c c' rest rest' letter others ih =>
    rw [List.dropWhile_cons, List.dropWhile_cons, plain.eq_of_upper_eq letter]
    cases property c with
    | false => exact .cons letter others
    | true => exact ih

/-- All characters of both texts have such a property, or of neither. -/
theorem all_eq (same : SameLetters text text') (plain : OneFormed property) :
    text'.all property = text.all property := by
  induction same with
  | nil => rfl
  | cons letter _ ih => rw [List.all_cons, List.all_cons, plain.eq_of_upper_eq letter, ih]

/-- Texts of such characters only are the same. -/
theorem eq_of_all (same : SameLetters text text') (plain : OneFormed property)
    (all : text.all property = true) : text' = text := by
  induction same with
  | nil => rfl
  | @cons c c' rest rest' letter _ ih =>
    rw [List.all_cons, Bool.and_eq_true] at all
    rw [(plain c all.1).eq_of_upper_eq_upper letter, ih all.2]

end SameLetters

end TapeCalc
