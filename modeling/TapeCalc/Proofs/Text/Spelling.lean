import TapeCalc.Text.Uppercase

/-!
# Spellings at the start of a text

Whether a text starts with a spelling depends on as many characters as the spelling has.
Letters have more than one form, but no letter has a blank, a mark, a digit or an operator as
its capital form.  So these characters only stand for themselves in a text.

Main definitions:

- {lit}`HasOneForm`: the first characters that are no letters.

Main results:

- Theorem {lit}`HasOneForm.eq_of_upper_eq_upper`: such a character is the form of no other one.
- Theorem {lit}`startsWith_append`: a spelling that is no longer than the start of a text.
- Theorem {lit}`mem_of_startsWith`: a spelling that goes on behind the start of a text.
-/

namespace TapeCalc

/-! ## Capital forms -/

/-- A letter that becomes several characters becomes at least two. -/
theorem two_le_length_of_caseExpansions : ∀ entry ∈ caseExpansions, 2 ≤ entry.2.length := by
  decide +kernel

/-- Of the first characters only two letters are capitals of letters beyond. -/
theorem image_of_caseRuns : ∀ run ∈ caseRuns, 0x80 ≤ run.image ∨
    run.first = run.last ∧ (run.image = 'I'.toNat ∨ run.image = 'S'.toNat) := by
  decide +kernel

/-- A capital that is found in the runs is one of these two letters or stands beyond the first
characters. -/
theorem cases_of_findSome? {code capital : Nat}
    (h : caseRuns.findSome? (fun run => run.capital? code) = some capital) :
    0x80 ≤ capital ∨ capital = 'I'.toNat ∨ capital = 'S'.toNat := by
  obtain ⟨run, member, found⟩ := List.exists_of_findSome?_eq_some h
  have image := image_of_caseRuns run member
  rw [CaseRun.capital?] at found
  split at found
  · cases found
    omega
  · cases found

/-- A character with a code has this code, unless there is no such character. -/
theorem toNat_ofNat (code : Nat) :
    (Char.ofNat code).toNat = code ∨ (Char.ofNat code).toNat = 0 := by
  by_cases valid : code.isValidChar
  · rw [Char.ofNat, dif_pos valid]
    exact Or.inl rfl
  · rw [Char.ofNat, dif_neg valid]
    exact Or.inr rfl

/-- But for two letters, the first characters are capital forms of first characters only. -/
theorem first_of_upper_eq {c s : Char} (positive : 0 < c.toNat) (first : c.toNat < 0x80)
    (other : c ≠ 'I' ∧ c ≠ 'S') (h : upper s = [c]) : s.toNat < 0x80 ∧ s.toUpper = c := by
  unfold upper at h
  split at h
  · exact ⟨‹_›, List.head_eq_of_cons_eq h⟩
  · rename_i beyond
    split at h
    · rename_i codes found
      obtain ⟨front, back, split, _⟩ := List.lookup_eq_some_iff.mp found
      have several : 2 ≤ codes.length :=
        two_le_length_of_caseExpansions (s.toNat, codes) (by rw [split]; simp)
      have one := congrArg List.length h
      rw [List.length_map, List.length_singleton] at one
      omega
    · split at h
      · rename_i capital found
        have same : Char.ofNat capital = c := List.head_eq_of_cons_eq h
        rcases cases_of_findSome? found with far | rfl | rfl
        · rcases toNat_ofNat capital with code | code
          · rw [same] at code
            omega
          · rw [same] at code
            omega
        · exact absurd same.symm other.1
        · exact absurd same.symm other.2
      · have same : s = c := List.head_eq_of_cons_eq h
        exact absurd (same ▸ first) beyond

/-- The characters with one form: the first characters that are no letters. -/
def HasOneForm (c : Char) : Prop :=
  0 < c.toNat ∧ c.toNat < 0x80 ∧ c.isAlpha = false

instance (c : Char) : Decidable (HasOneForm c) :=
  inferInstanceAs (Decidable (_ ∧ _ ∧ _))

/-- What is true of each of the first characters, by their codes. -/
theorem of_first {property : Char → Prop} (all : ∀ code < 0x80, property (Char.ofNat code))
    {c : Char} (first : c.toNat < 0x80) : property c := by
  have this := all c.toNat first
  rwa [Char.ofNat_toNat] at this

/-- Of the first characters only small letters have another capital form. -/
theorem toUpper_eq_self {c : Char} (first : c.toNat < 0x80) :
    c.toUpper.isAlpha = false → c.toUpper = c :=
  @of_first (fun c => c.toUpper.isAlpha = false → c.toUpper = c) (by decide) c first

/-- A character with one form is its own capital form. -/
theorem HasOneForm.upper_eq {c : Char} (h : HasOneForm c) : upper c = [c] := by
  have capital : c.isAlpha = false → c.toUpper = c :=
    @of_first (fun c => c.isAlpha = false → c.toUpper = c) (by decide) c h.2.1
  rw [upper, if_pos h.2.1, capital h.2.2]

/-- A character with one form is the capital form of no other character. -/
theorem HasOneForm.eq_of_upper_eq_upper {c s : Char} (h : HasOneForm c)
    (same : upper s = upper c) : s = c := by
  have other : c ≠ 'I' ∧ c ≠ 'S' := by
    constructor <;> (rintro rfl; exact absurd h (by decide))
  obtain ⟨first, capital⟩ := first_of_upper_eq h.1 h.2.1 other (same.trans h.upper_eq)
  have plain : s.toUpper.isAlpha = false := by
    rw [capital]
    exact h.2.2
  rw [← capital, toUpper_eq_self first plain]

/-! ## The start of a text -/

/-- Whether a spelling is found depends on as many characters as it has. -/
theorem startsWith_append {spelling front : List Char} (short : spelling.length ≤ front.length)
    (rest : List Char) : startsWith spelling (front ++ rest) = startsWith spelling front := by
  induction spelling generalizing front with
  | nil => rfl
  | cons s spelling ih =>
    cases front with
    | nil => cases short
    | cons c front =>
      rw [List.cons_append, startsWith, startsWith, ih (Nat.le_of_succ_le_succ short)]

/-- A spelling that goes on behind the start of a text has a letter for the next character. -/
theorem exists_sameLetter_of_startsWith {spelling front rest : List Char} {c : Char}
    (long : front.length < spelling.length)
    (h : startsWith spelling (front ++ c :: rest) = true) :
    ∃ s ∈ spelling, sameLetter c s = true := by
  induction front generalizing spelling with
  | nil =>
    cases spelling with
    | nil => cases long
    | cons s spelling =>
      rw [List.nil_append, startsWith, Bool.and_eq_true] at h
      exact ⟨s, List.mem_cons_self, h.1⟩
  | cons d front ih =>
    cases spelling with
    | nil => cases long
    | cons s spelling =>
      rw [List.cons_append, startsWith, Bool.and_eq_true] at h
      obtain ⟨letter, member, same⟩ := ih (Nat.lt_of_succ_lt_succ long) h.2
      exact ⟨letter, List.mem_cons_of_mem _ member, same⟩

/-- A spelling that goes on behind the start of a text has the next character in it, if this
character has one form only. -/
theorem mem_of_startsWith {spelling rest : List Char} {c : Char} (plain : HasOneForm c)
    (front : List Char) (long : front.length < spelling.length)
    (h : startsWith spelling (front ++ c :: rest) = true) : c ∈ spelling := by
  obtain ⟨s, member, same⟩ := exists_sameLetter_of_startsWith long h
  have forms : upper c = upper s := eq_of_beq same
  rwa [plain.eq_of_upper_eq_upper forms.symm] at member

end TapeCalc
