import TapeCalc.Text.Blank

/-!
# Gaps between lexemes

Between lexemes stand blanks and comments.  A comment is opened by a mark and closed by
the next one; there is no way to write the mark inside.

Main definitions:

- {lit}`Gap.scan`: passes over a gap and notes whether a comment is left open.
- {lit}`IsGap`: the texts that are blanks and closed comments only.

Main results:

- Theorem {lit}`Gap.position_scan`: no character of a gap is lost or read twice.
- Theorem {lit}`Gap.head_rest_scan`: a gap is as long as it can be.
-/

namespace TapeCalc

/-- The mark that opens a comment and closes it. -/
def commentMark : Char := '\x60'

/-- Where a gap ends, what follows it, and where the comment begins that is still open. -/
structure Gap where
  position : Nat
  rest : List Char
  openedAt : Option Nat

namespace Gap

/-- Pass over blanks and comments from a position on, inside a comment if one is open. -/
def scan (position : Nat) (openedAt : Option Nat) : List Char → Gap
  | [] => ⟨position, [], openedAt⟩
  | c :: rest =>
    if c = commentMark then
      scan (position + 1) (if openedAt.isNone then some position else none) rest
    else if openedAt.isNone && !isBlank c then ⟨position, c :: rest, none⟩
    else scan (position + 1) openedAt rest

/-- What a gap takes is what the position moves by. -/
theorem position_scan (position : Nat) (openedAt : Option Nat) (text : List Char) :
    (scan position openedAt text).position + (scan position openedAt text).rest.length =
      position + text.length := by
  induction text generalizing position openedAt with
  | nil => rfl
  | cons c rest ih =>
    rw [scan, List.length_cons]
    split
    · rw [ih]
      omega
    · split
      · rfl
      · rw [ih]
        omega

/-- Passing over a gap never moves back. -/
theorem le_position_scan (position : Nat) (openedAt : Option Nat) (text : List Char) :
    position ≤ (scan position openedAt text).position := by
  induction text generalizing position openedAt with
  | nil => exact Nat.le_refl _
  | cons c rest ih =>
    rw [scan]
    split
    · exact Nat.le_of_succ_le (ih _ _)
    · split
      · exact Nat.le_refl _
      · exact Nat.le_of_succ_le (ih _ _)

/-- Where a gap ends without an open comment, neither a blank nor a mark follows. -/
theorem head_rest_scan {position : Nat} {openedAt : Option Nat} {text : List Char}
    (closed : (scan position openedAt text).openedAt = none) {c : Char}
    (head : (scan position openedAt text).rest.head? = some c) :
    c ≠ commentMark ∧ isBlank c = false := by
  induction text generalizing position openedAt with
  | nil => simp [scan] at head
  | cons d rest ih =>
    rw [scan] at closed head
    split at head
    · rename_i mark
      rw [if_pos mark] at closed
      exact ih closed head
    · rename_i mark
      rw [if_neg mark] at closed
      split at head
      · rename_i stop
        have same : d = c := by simpa using head
        have blank : isBlank d = false := by
          simp only [Bool.and_eq_true, Bool.not_eq_true'] at stop
          exact stop.2
        exact same ▸ ⟨mark, blank⟩
      · rename_i go
        rw [if_neg go] at closed
        exact ih closed head

end Gap

/-- The texts that consist of blanks and closed comments. -/
inductive IsGap : List Char → Prop where
  | nil : IsGap []
  | blank {c : Char} {rest : List Char} (isBlank : isBlank c = true) (gap : IsGap rest) :
      IsGap (c :: rest)
  | comment {body rest : List Char} (unmarked : commentMark ∉ body) (gap : IsGap rest) :
      IsGap (commentMark :: body ++ commentMark :: rest)

end TapeCalc
