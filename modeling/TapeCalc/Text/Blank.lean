/-!
# Blanks

Two notions of blank are in use.  Between lexemes only spaces and tabs count.  A line
of a batch is skipped when it consists of characters with the {lit}`White_Space`
property of the Unicode standard.
-/

namespace TapeCalc

/-- The blanks that may stand between lexemes. -/
def isBlank (c : Char) : Bool := c == ' ' || c == '\t'

/-- Ranges of the code points with the {lit}`White_Space` property. -/
def whiteSpaceRanges : List (Nat × Nat) := [
  (0x09, 0x0D), (0x20, 0x20), (0x85, 0x85), (0xA0, 0xA0), (0x1680, 0x1680), (0x2000, 0x200A),
  (0x2028, 0x2029), (0x202F, 0x202F), (0x205F, 0x205F), (0x3000, 0x3000)]

/-- Whether a character has the {lit}`White_Space` property. -/
def isWhiteSpace (c : Char) : Bool :=
  whiteSpaceRanges.any fun (first, last) => first ≤ c.toNat && c.toNat ≤ last

end TapeCalc
