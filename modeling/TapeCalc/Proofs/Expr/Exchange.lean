import TapeCalc.Expr.Grammar
import TapeCalc.Proofs.Machine.Exchange

/-!
# Phrases with exchanged variables

The grammar does not tell the two variables apart.  So a phrase with its variables exchanged is a
phrase of the same rank, and its tree is the tree with the variables exchanged.  The code of that
tree is the code with the variables exchanged, where the indices of literals stay.

Main definitions:

- {lit}`Token.exchanged` and {lit}`Expr.exchanged`: the variables exchanged.

Main results:

- Theorem {lit}`Derives.exchanged`: phrases with their variables exchanged.
- Theorem {lit}`Expr.code_exchanged`: the code of an expression with its variables exchanged.
-/

namespace TapeCalc

/-! ## Phrases -/

/-- The token with the variables exchanged. -/
def Token.exchanged : Token → Token
  | .load slot => .load slot.other
  | token => token

/-- The expression with the variables exchanged. -/
def Expr.exchanged : Expr → Expr
  | .literal index => .literal index
  | .load slot => .load slot.other
  | .pi => .pi
  | .group inner => .group inner.exchanged
  | .signed sign operand => .signed sign operand.exchanged
  | .call op argument => .call op argument.exchanged
  | .binary op left right => .binary op left.exchanged right.exchanged

@[simp] theorem Token.exchanged_exchanged (token : Token) : token.exchanged.exchanged = token := by
  cases token <;> simp [exchanged]

/-- An operator stays what it is. -/
theorem Rank.operator?_exchanged (rank : Rank) (token : Token) :
    rank.operator? token.exchanged = rank.operator? token := by
  cases token with
  | load slot => cases rank <;> rfl
  | _ => rfl

/-- An operator of a rank is no variable. -/
theorem Rank.exchanged_of_operator? {rank : Rank} {token : Token} {op : BinaryOp}
    (h : rank.operator? token = some op) : token.exchanged = token := by
  cases token with
  | load slot => cases rank <;> cases h
  | _ => rfl

/-- A phrase with its variables exchanged has the tree with its variables exchanged. -/
theorem Derives.exchanged {rank : Rank} {tokens : List Token} {expr : Expr}
    (derives : Derives rank tokens expr) :
    Derives rank (tokens.map Token.exchanged) expr.exchanged := by
  induction derives with
  | single proper _ ih => exact .single proper ih
  | more _ isOperator _ ihFirst ihLast =>
    rw [List.map_append, List.map_cons, Rank.exchanged_of_operator? isOperator]
    exact .more ihFirst isOperator ihLast
  | literal index => exact .literal index
  | load slot => exact .load slot.other
  | pi => exact .pi
  | group _ ih =>
    rw [List.map_append, List.map_cons]
    exact .group ih
  | signed sign _ ih => exact .signed sign ih
  | call op _ ih =>
    rw [List.map_append, List.map_cons, List.map_cons]
    exact .call op ih

/-! ## Code -/

/-- The code of an expression in front of other words, with the variables exchanged. -/
theorem Expr.exchangedWords_code (expr : Expr) (rest : List Word) :
    exchangedWords (expr.code ++ rest) = expr.exchanged.code ++ exchangedWords rest := by
  induction expr generalizing rest with
  | literal index => exact exchangedWords_loadConst _ rest
  | load slot => exact exchangedWords_word Opcode.noConfusion rest
  | pi => exact exchangedWords_word Opcode.noConfusion rest
  | group inner ih => exact ih rest
  | signed sign operand ih =>
    cases sign with
    | plus => exact ih rest
    | minus =>
      simp only [code, exchanged, List.append_assoc, ih]
      exact congrArg _ (exchangedWords_word Opcode.noConfusion rest)
  | call op argument ih =>
    simp only [code, exchanged, List.append_assoc, ih]
    exact congrArg _ (exchangedWords_word Opcode.noConfusion rest)
  | binary op left right ihLeft ihRight =>
    simp only [code, exchanged, List.append_assoc, ihLeft, ihRight]
    exact congrArg _ (congrArg _ (exchangedWords_word Opcode.noConfusion rest))

/-- The code of an expression with its variables exchanged. -/
theorem Expr.code_exchanged (expr : Expr) : expr.exchanged.code = exchangedWords expr.code := by
  have whole := expr.exchangedWords_code []
  rw [List.append_nil] at whole
  rw [whole]
  exact (List.append_nil _).symm

end TapeCalc
