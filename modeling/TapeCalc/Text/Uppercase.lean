import TapeCalc.Text.CaseTable

/-!
# Spellings without regard to case

Two spellings are compared through their capital letters, in two ways.  A name found
in a text is compared character by character, so it covers as many characters as it
has.  Two names are the same spelling when their capital forms are equal as a whole,
so a letter whose capital form is two letters equals those two letters.

Main definitions:

- {lit}`upper`: the capital form of one character.
- {lit}`sameSpelling`: equality of whole capital forms.
- {lit}`startsWith`: a spelling at the start of a text, character by character.
-/

namespace TapeCalc

/-- The capital form of a character, which may be several characters. -/
def upper (c : Char) : List Char :=
  if c.toNat < 0x80 then [c.toUpper]
  else
    match caseExpansions.lookup c.toNat with
    | some codes => codes.map Char.ofNat
    | none =>
      match caseRuns.findSome? fun run => run.capital? c.toNat with
      | some code => [Char.ofNat code]
      | none => [c]

/-- Whether two characters have one capital form. -/
def sameLetter (a b : Char) : Bool := upper a == upper b

/-- Whether two spellings have one capital form as a whole. -/
def sameSpelling (a b : List Char) : Bool := a.flatMap upper == b.flatMap upper

/-- Whether a text starts with a spelling, character by character. -/
def startsWith : List Char → List Char → Bool
  | [], _ => true
  | _ :: _, [] => false
  | s :: spelling, c :: text => sameLetter c s && startsWith spelling text

/-- A spelling found at the start of a text leaves as many characters behind as it has. -/
theorem startsWith_length {spelling text : List Char} (h : startsWith spelling text = true) :
    spelling.length ≤ text.length := by
  induction spelling generalizing text with
  | nil => simp
  | cons s spelling ih =>
    cases text with
    | nil => simp [startsWith] at h
    | cons c text =>
      simp only [startsWith, Bool.and_eq_true] at h
      simpa using ih h.2

end TapeCalc
