import TapeCalc.Expr.Basic
import TapeCalc.Token

/-!
# The grammar of expressions

Four ranks of phrases, from loosest to tightest:

- an expression is terms with {lit}`+` and {lit}`-` between them,
- a term is powers with {lit}`*` and {lit}`/` between them,
- a power is factors with {lit}`^` between them,
- a factor is a literal, a name, an expression in parentheses, a factor with a sign in
  front of it, or a function with its argument in parentheses.

Main definitions:

- {lit}`Derives`: a sequence of tokens is a phrase of a rank and has a tree.
-/

namespace TapeCalc

/-- The ranks of phrases. -/
inductive Rank where
  | expression
  | term
  | power
  | factor
deriving DecidableEq, Inhabited

namespace Rank

/-- The rank of the operands of a rank's operators. -/
def tighter : Rank → Rank
  | expression => term
  | term => power
  | power => factor
  | factor => factor

/-- The operation of a token that is an operator of a rank. -/
def operator? : Rank → Token → Option BinaryOp
  | expression => Token.additive?
  | term => Token.multiplicative?
  | power => Token.power?
  | factor => fun _ => none

end Rank

/-- The tokens are a phrase of the rank, and the tree is how it groups.  Operators of one
rank group to the left. -/
inductive Derives : Rank → List Token → Expr → Prop where
  | single {rank : Rank} {tokens : List Token} {expr : Expr} (proper : rank ≠ .factor)
      (operand : Derives rank.tighter tokens expr) : Derives rank tokens expr
  | more {rank : Rank} {left right : List Token} {operator : Token} {op : BinaryOp}
      {lhs rhs : Expr} (first : Derives rank left lhs)
      (isOperator : rank.operator? operator = some op)
      (last : Derives rank.tighter right rhs) :
      Derives rank (left ++ operator :: right) (.binary op lhs rhs)
  | literal (index : Nat) : Derives .factor [.constant index] (.literal index)
  | load (slot : Slot) : Derives .factor [.load slot] (.load slot)
  | pi : Derives .factor [.pi] .pi
  | group {tokens : List Token} {expr : Expr} (inner : Derives .expression tokens expr) :
      Derives .factor (.leftParen :: tokens ++ [.rightParen]) (.group expr)
  | signed (sign : Sign) {tokens : List Token} {expr : Expr}
      (operand : Derives .factor tokens expr) :
      Derives .factor (.additive sign :: tokens) (.signed sign expr)
  | call (op : UnaryOp) {tokens : List Token} {expr : Expr}
      (argument : Derives .expression tokens expr) :
      Derives .factor (.function op :: .leftParen :: tokens ++ [.rightParen]) (.call op expr)

/-- No phrase is empty. -/
theorem Derives.ne_nil {rank : Rank} {tokens : List Token} {expr : Expr}
    (derives : Derives rank tokens expr) : tokens ≠ [] := by
  induction derives with
  | single _ _ ih => exact ih
  | more _ _ _ _ _ => simp
  | literal _ => simp
  | load _ => simp
  | pi => simp
  | group _ _ => simp
  | signed _ _ _ => simp
  | call _ _ _ => simp

end TapeCalc
