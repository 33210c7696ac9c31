import TapeCalc.Gap

/-!
# Gaps in front of a text

A scan passes over blanks and comments as far as it can.  So where a scan leaves no comment
open, it has passed over a gap, and neither a blank nor a comment follows.  The other way
round, a scan passes over any gap, and it stops where no gap goes on.

Main definitions:

- {lit}`Gap.Ends`: no gap goes on in a text.
- {lit}`Gap.Longest`: a gap as long as it can be.

Main results:

- Theorem {lit}`Gap.scan_append`: a scan passes over a gap.
- Theorem {lit}`Gap.exists_isGap`: what a closed scan has passed over is a gap.
- Theorem {lit}`Gap.longest_of_ends`: a gap that ends is as long as it can be.
-/

namespace TapeCalc

namespace Gap

/-! ## Passing over gaps -/

/-- No gap goes on in a text: it starts with neither a blank nor a comment. -/
def Ends (text : List Char) : Prop :=
  ∀ c, text.head? = some c → c ≠ commentMark ∧ isBlank c = false

/-- Whether a gap goes on depends on the first character only. -/
theorem Ends.congr {word rest : List Char} (ends : Ends (word ++ rest)) (positive : word ≠ [])
    (rest' : List Char) : Ends (word ++ rest') := by
  obtain ⟨c, more, rfl⟩ := List.exists_cons_of_ne_nil positive
  exact ends

/-- A comment that is open ends with the next mark. -/
theorem scan_body (position opened : Nat) {body : List Char} (unmarked : commentMark ∉ body)
    (rest : List Char) :
    scan position (some opened) (body ++ commentMark :: rest) =
      scan (position + body.length + 1) none rest := by
  induction body generalizing position with
  | nil => rw [List.nil_append, scan, if_pos rfl]; rfl
  | cons c body ih =>
    have other : c ≠ commentMark := fun mark => unmarked (mark ▸ List.mem_cons_self)
    rw [List.cons_append, scan, if_neg other, if_neg (by simp),
      ih _ fun member => unmarked (List.mem_cons_of_mem _ member), List.length_cons]
    congr 1
    omega

/-- What follows a gap is scanned as if there were no gap. -/
theorem scan_append {gap : List Char} (h : IsGap gap) (position : Nat) (rest : List Char) :
    scan position none (gap ++ rest) = scan (position + gap.length) none rest := by
  induction h generalizing position with
  | nil => rfl
  | @blank c gap isBlank _ ih =>
    have other : c ≠ commentMark := by
      rintro rfl
      cases isBlank
    rw [List.cons_append, scan, if_neg other, if_neg (by simp [isBlank]), ih, List.length_cons]
    congr 1
    omega
  | @comment body gap unmarked _ ih =>
    have opened : scan position none ((commentMark :: body ++ commentMark :: gap) ++ rest) =
        scan (position + 1) (some position) (body ++ commentMark :: (gap ++ rest)) := by
      rw [List.append_assoc, List.cons_append, List.cons_append, scan, if_pos rfl]
      rfl
    rw [opened, scan_body _ _ unmarked, ih]
    congr 1
    simp only [List.length_append, List.length_cons]
    omega

/-- Where no gap goes on, there is nothing to pass over. -/
theorem scan_of_ends (position : Nat) {rest : List Char} (ends : Ends rest) :
    scan position none rest = ⟨position, rest, none⟩ := by
  cases rest with
  | nil => rfl
  | cons c rest =>
    obtain ⟨other, blank⟩ := ends c rfl
    rw [scan, if_neg other, if_pos (by simp [blank])]

/-! ## What has been passed -/

/-- What a scan passes over: a gap, or what is left of an open comment and a gap behind it. -/
inductive Passes : Option Nat → List Char → Prop where
  | gap {passed : List Char} (isGap : IsGap passed) : Passes none passed
  | comment {opened : Nat} {body gap : List Char} (unmarked : commentMark ∉ body)
      (isGap : IsGap gap) : Passes (some opened) (body ++ commentMark :: gap)

/-- A character in front of what a scan passes over. -/
theorem Passes.cons {position : Nat} {openedAt : Option Nat} {c : Char} {passed : List Char}
    (passes : Passes (if c = commentMark then
      (if openedAt.isNone then some position else none) else openedAt) passed)
    (goesOn : c = commentMark ∨ openedAt.isSome ∨ isBlank c = true) :
    Passes openedAt (c :: passed) := by
  by_cases mark : c = commentMark
  · subst mark
    rw [if_pos rfl] at passes
    cases openedAt with
    | none =>
      cases passes with
      | comment unmarked isGap => exact .gap (.comment unmarked isGap)
    | some opened =>
      cases passes with
      | gap isGap => exact .comment List.not_mem_nil isGap
  · rw [if_neg mark] at passes
    cases passes with
    | gap isGap => exact .gap (.blank (by simpa [mark] using goesOn) isGap)
    | @comment _ body gap unmarked isGap =>
      have other : commentMark ∉ c :: body := by
        intro member
        rcases List.mem_cons.mp member with same | later
        · exact mark same.symm
        · exact unmarked later
      exact .comment other isGap

/-- A scan that leaves no comment open has passed over the text in front of its end. -/
theorem exists_passes {position : Nat} {openedAt : Option Nat} {text : List Char}
    (closed : (scan position openedAt text).openedAt = none) :
    ∃ passed, Passes openedAt passed ∧ text = passed ++ (scan position openedAt text).rest := by
  induction text generalizing position openedAt with
  | nil =>
    cases openedAt with
    | none => exact ⟨[], .gap .nil, rfl⟩
    | some opened => cases closed
  | cons c text ih =>
    by_cases goesOn : c = commentMark ∨ openedAt.isSome ∨ isBlank c = true
    · have next : scan position openedAt (c :: text) = scan (position + 1)
          (if c = commentMark then (if openedAt.isNone then some position else none)
            else openedAt) text := by
        rw [scan]
        by_cases mark : c = commentMark
        · rw [if_pos mark, if_pos mark]
        · have inside : (openedAt.isNone && !isBlank c) = false := by
            cases openedAt with
            | none => simpa [mark] using goesOn
            | some opened => rfl
          rw [if_neg mark, if_neg mark, inside, if_neg Bool.false_ne_true]
      rw [next] at closed ⊢
      obtain ⟨passed, passes, whole⟩ := ih closed
      exact ⟨c :: passed, passes.cons goesOn, congrArg (c :: ·) whole⟩
    · cases openedAt with
      | some opened => exact absurd (Or.inr (Or.inl rfl)) goesOn
      | none =>
        have ends : Ends (c :: text) := by
          rintro _ ⟨rfl⟩
          exact ⟨fun mark => goesOn (Or.inl mark),
            Bool.eq_false_iff.mpr fun blank => goesOn (Or.inr (Or.inr blank))⟩
        rw [scan_of_ends _ ends]
        exact ⟨[], .gap .nil, rfl⟩

/-- A closed scan has passed over a gap, and the gap ends there. -/
theorem exists_isGap (position : Nat) {text : List Char}
    (closed : (scan position none text).openedAt = none) :
    ∃ gap rest, IsGap gap ∧ Ends rest ∧ text = gap ++ rest ∧
      scan position none text = ⟨position + gap.length, rest, none⟩ := by
  obtain ⟨gap, ⟨isGap⟩, whole⟩ := exists_passes closed
  have ends : Ends (scan position none text).rest := fun c head => head_rest_scan closed head
  refine ⟨gap, _, isGap, ends, whole, ?_⟩
  generalize (scan position none text).rest = rest at whole ends
  rw [whole, scan_append isGap, scan_of_ends _ ends]

/-! ## Longest gaps -/

/-- A gap as long as it can be in front of the rest of a text. -/
def Longest (gap rest : List Char) : Prop :=
  IsGap gap ∧ ∀ more, more <+: rest → IsGap (gap ++ more) → more = []

/-- A gap that ends in front of the rest of a text is as long as it can be. -/
theorem longest_of_ends {gap rest : List Char} (isGap : IsGap gap) (ends : Ends rest) :
    Longest gap rest := by
  refine ⟨isGap, ?_⟩
  rintro more ⟨behind, rfl⟩ longer
  -- The scan stops behind the gap, but not before the end of the longer one.
  have stops : scan 0 none (gap ++ (more ++ behind)) = ⟨0 + gap.length, more ++ behind, none⟩ := by
    rw [scan_append isGap, scan_of_ends _ ends]
  have passes := Gap.le_position_scan (0 + (gap ++ more).length) none behind
  rw [← scan_append longer, List.append_assoc, stops, List.length_append] at passes
  exact List.length_eq_zero_iff.mp (by dsimp only at passes; omega)

end Gap

end TapeCalc
