import TapeCalc.BoundedStack

/-!
# The constant pool

Values of literals are kept once each, in the order in which they first occur.  A
value equal to a stored one shares its place, which also works when the pool is full.
-/

namespace TapeCalc

/-- The values of the literals of a text, oldest first as a list. -/
abbrev Pool := BoundedStack Float

namespace Pool

/-- An empty pool for a number of values. -/
def empty (maxConstants : Nat) : Pool := BoundedStack.empty maxConstants .tooManyConstants

/-- A pool that holds exactly the given values. -/
def ofList (values : List Float) : Pool := BoundedStack.ofList values .tooManyConstants

/-- The index of a value: that of the first stored value equal to it, or a new one. -/
def store (value : Float) : Action Pool Nat := do
  let pool ← get
  match pool.toList.findIdx? (· == value) with
  | some index => return index
  | none =>
    BoundedStack.push value
    return pool.size

end Pool

end TapeCalc
