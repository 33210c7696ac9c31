import TapeCalc.Arithmetic
import TapeCalc.Token

/-!
# Expressions as trees

The tree of an expression keeps what was written, parentheses and signs included, with
literals as indices into a pool of values.  It is evaluated directly, operands from left
to right, and it has the post-order code a compilation ought to produce.

Main definitions:

- {lit}`Expr.evaluate`: the value of a tree.
- {lit}`Expr.code`: its instructions in post-order.
- {lit}`Expr.depth`: how deep parentheses, calls and signs nest.
-/

namespace TapeCalc

/-- An expression as it was written. -/
inductive Expr where
  | literal (index : Nat)
  | load (slot : Slot)
  | pi
  | group (inner : Expr)
  | signed (sign : Sign) (operand : Expr)
  | call (op : UnaryOp) (argument : Expr)
  | binary (op : BinaryOp) (left right : Expr)
deriving DecidableEq, Inhabited

/-- The values an expression is evaluated with. -/
structure Valuation where
  slot : Slot → Float
  literal : Nat → Float

namespace Expr

/-- The value of an expression: the left operand first, then the right one, then the
operation, and the first fault met on the way ends it. -/
def evaluate (valuation : Valuation) : Expr → Except Fault Float
  | literal index => .ok (valuation.literal index)
  | load slot => .ok (valuation.slot slot)
  | pi => .ok circleConstant
  | group inner => inner.evaluate valuation
  | signed sign operand =>
    match operand.evaluate valuation with
    | .error fault => .error fault
    | .ok value =>
      match sign with
      | .plus => .ok value
      | .minus => UnaryOp.neg.apply value
  | call op argument =>
    match argument.evaluate valuation with
    | .error fault => .error fault
    | .ok value => op.apply value
  | binary op left right =>
    match left.evaluate valuation with
    | .error fault => .error fault
    | .ok lhs =>
      match right.evaluate valuation with
      | .error fault => .error fault
      | .ok rhs => op.apply lhs rhs

/-- The instructions of an expression in post-order.  Parentheses and plus signs leave
nothing behind. -/
def code : Expr → List Word
  | literal index => [Opcode.loadConst.word, UInt16.ofNat index]
  | load slot => [(Opcode.load slot).word]
  | pi => [Opcode.pi.word]
  | group inner => inner.code
  | signed .plus operand => operand.code
  | signed .minus operand => operand.code ++ [(Opcode.unary .neg).word]
  | call op argument => argument.code ++ [(Opcode.unary op).word]
  | binary op left right => left.code ++ right.code ++ [(Opcode.binary op).word]

/-- How deep parentheses, calls and signs nest. -/
def depth : Expr → Nat
  | literal _ => 0
  | load _ => 0
  | pi => 0
  | group inner => inner.depth + 1
  | signed _ operand => operand.depth + 1
  | call _ argument => argument.depth + 1
  | binary _ left right => max left.depth right.depth

/-- The indices of the literals, from left to right. -/
def literals : Expr → List Nat
  | literal index => [index]
  | load _ => []
  | pi => []
  | group inner => inner.literals
  | signed _ operand => operand.literals
  | call _ argument => argument.literals
  | binary _ left right => left.literals ++ right.literals

/-- The words an expression takes: two for a literal, one for everything else that has
an instruction. -/
def codeLength : Expr → Nat
  | literal _ => 2
  | load _ => 1
  | pi => 1
  | group inner => inner.codeLength
  | signed .plus operand => operand.codeLength
  | signed .minus operand => operand.codeLength + 1
  | call _ argument => argument.codeLength + 1
  | binary _ left right => left.codeLength + right.codeLength + 1

/-- The code takes as many words as it is counted to take. -/
theorem length_code (expr : Expr) : expr.code.length = expr.codeLength := by
  induction expr with
  | literal _ => rfl
  | load _ => rfl
  | pi => rfl
  | group _ ih => exact ih
  | signed sign _ ih => cases sign <;> simp [code, codeLength, ih]
  | call _ _ ih => simp [code, codeLength, ih]
  | binary _ _ _ ihLeft ihRight => simp [code, codeLength, ihLeft, ihRight, Nat.add_assoc]

end Expr

end TapeCalc
