/-!
# Capacities

The three limits one compilation works under.  They only cut off: none of them
changes what an accepted text compiles to.
-/

namespace TapeCalc

/-- How much one compilation may use. -/
structure Limits where
  /-- Words of tape, operands included. -/
  maxCodeLen : Nat
  /-- Distinct literal values in the pool. -/
  maxConstants : Nat
  /-- Nesting of parentheses, calls and signs. -/
  maxDepth : Nat
deriving DecidableEq, Inhabited

namespace Limits

/-- The limits in force when nothing else is asked for. -/
def standard : Limits := ⟨100, 20, 32⟩

end Limits

end TapeCalc
