import TapeCalc.Expr.Basic
import TapeCalc.Expr.Grammar

/-!
# Substitution in phrases

In a phrase every name may be replaced by a factor, and every literal may get another index.
The phrase stays one of its rank, and its tree is the old one with other trees in the place
of names and literals.  Where each of these has the value of what it stands for, the whole
tree is evaluated as before, to the same value or to the same fault.

Main definitions:

- {lit}`Expr.Substituted`: a tree with other trees in the place of names and literals.
- {lit}`Replaces` and {lit}`ReplacesAll`: what may stand for a token and for tokens in a row.

Main results:

- Theorem {lit}`Derives.substitute`: a phrase in which tokens have been replaced.
- Theorem {lit}`Expr.Substituted.evaluate_eq`: the value of the new tree.
-/

namespace TapeCalc

section Substitution

variable (literal : Nat → Nat → Prop) (name : Slot → Expr → Prop)

/-! ## Trees -/

/-- The second tree is the first one with literals that may stand for its literals and with trees
that may stand for its names. -/
inductive Expr.Substituted : Expr → Expr → Prop where
  | literal {index index' : Nat} (stands : literal index index') :
      Substituted (.literal index) (.literal index')
  | load {slot : Slot} {expr : Expr} (stands : name slot expr) : Substituted (.load slot) expr
  | pi : Substituted .pi .pi
  | group {inner inner' : Expr} (substituted : Substituted inner inner') :
      Substituted (.group inner) (.group inner')
  | signed (sign : Sign) {operand operand' : Expr} (substituted : Substituted operand operand') :
      Substituted (.signed sign operand) (.signed sign operand')
  | call (op : UnaryOp) {argument argument' : Expr} (substituted : Substituted argument argument') :
      Substituted (.call op argument) (.call op argument')
  | binary (op : BinaryOp) {left left' right right' : Expr}
      (substitutedLeft : Substituted left left') (substitutedRight : Substituted right right') :
      Substituted (.binary op left right) (.binary op left' right')

/-! ## Tokens -/

/-- What may stand for a token: another index for a literal, a factor for a name, and any other
token for itself. -/
inductive Replaces : Token → List Token → Prop where
  | literal {index index' : Nat} (stands : literal index index') :
      Replaces (.constant index) [.constant index']
  | load {slot : Slot} {tokens : List Token} {expr : Expr} (derives : Derives .factor tokens expr)
      (stands : name slot expr) : Replaces (.load slot) tokens
  | itself {token : Token} (noLiteral : ∀ index, token ≠ .constant index)
      (noName : ∀ slot, token ≠ .load slot) : Replaces token [token]

/-- What may stand for tokens in a row, one after the other. -/
inductive ReplacesAll : List Token → List Token → Prop where
  | nil : ReplacesAll [] []
  | cons {token : Token} {piece tokens tokens' : List Token}
      (first : Replaces literal name token piece) (rest : ReplacesAll tokens tokens') :
      ReplacesAll (token :: tokens) (piece ++ tokens')

end Substitution

variable {literal : Nat → Nat → Prop} {name : Slot → Expr → Prop}

namespace ReplacesAll

/-- What stands for tokens in a row falls into two parts wherever they do. -/
theorem of_append {left right tokens : List Token}
    (h : ReplacesAll literal name (left ++ right) tokens) :
    ∃ left' right', ReplacesAll literal name left left' ∧
      ReplacesAll literal name right right' ∧ tokens = left' ++ right' := by
  induction left generalizing tokens with
  | nil => exact ⟨[], tokens, .nil, h, rfl⟩
  | cons token left ih =>
    cases h with
    | cons first rest =>
      obtain ⟨left', right', replacesLeft, replacesRight, rfl⟩ := ih rest
      exact ⟨_, right', .cons first replacesLeft, replacesRight, (List.append_assoc _ _ _).symm⟩

/-- A token that is neither a literal nor a name stays in its place. -/
theorem of_cons {token : Token} (noLiteral : ∀ index, token ≠ .constant index)
    (noName : ∀ slot, token ≠ .load slot) {tokens all : List Token}
    (h : ReplacesAll literal name (token :: tokens) all) :
    ∃ tokens', ReplacesAll literal name tokens tokens' ∧ all = token :: tokens' := by
  cases h with
  | cons first rest =>
    cases first with
    | literal _ => exact absurd rfl (noLiteral _)
    | load _ _ => exact absurd rfl (noName _)
    | itself _ _ => exact ⟨_, rest, rfl⟩

/-- Nothing stands for no tokens. -/
theorem of_nil {tokens : List Token} (h : ReplacesAll literal name [] tokens) : tokens = [] := by
  cases h
  rfl

/-- What stands for a single token. -/
theorem of_singleton {token : Token} {tokens : List Token}
    (h : ReplacesAll literal name [token] tokens) : Replaces literal name token tokens := by
  cases h with
  | cons first rest =>
    cases rest
    rwa [List.append_nil]

/-- What stands for tokens in parentheses. -/
theorem of_parentheses {inner tokens : List Token}
    (h : ReplacesAll literal name (.leftParen :: inner ++ [.rightParen]) tokens) :
    ∃ inner', ReplacesAll literal name inner inner' ∧
      tokens = .leftParen :: inner' ++ [.rightParen] := by
  obtain ⟨behind, replaces, rfl⟩ := of_cons (by simp) (by simp) h
  obtain ⟨inner', close, replacesInner, replacesClose, rfl⟩ := of_append replaces
  obtain ⟨nothing, replacesNothing, rfl⟩ := of_cons (by simp) (by simp) replacesClose
  rw [replacesNothing.of_nil]
  exact ⟨inner', replacesInner, rfl⟩

end ReplacesAll

/-! ## Phrases -/

/-- An operator is neither a literal nor a name. -/
theorem Rank.plain_of_operator? {rank : Rank} {token : Token} {op : BinaryOp}
    (h : rank.operator? token = some op) :
    (∀ index, token ≠ .constant index) ∧ ∀ slot, token ≠ .load slot := by
  refine ⟨?_, ?_⟩
  · rintro index rfl
    cases rank <;> cases h
  · rintro slot rfl
    cases rank <;> cases h

/-- A phrase in which tokens have been replaced is a phrase of the same rank, and in its tree other
trees stand in the place of names and literals. -/
theorem Derives.substitute {rank : Rank} {tokens : List Token} {expr : Expr}
    (derives : Derives rank tokens expr) {tokens' : List Token}
    (replaces : ReplacesAll literal name tokens tokens') :
    ∃ expr', Derives rank tokens' expr' ∧ expr.Substituted literal name expr' := by
  induction derives generalizing tokens' with
  | single proper _ ih =>
    obtain ⟨expr', derives', substituted⟩ := ih replaces
    exact ⟨expr', .single proper derives', substituted⟩
  | more _ isOperator _ ihFirst ihLast =>
    obtain ⟨noLiteral, noName⟩ := Rank.plain_of_operator? isOperator
    obtain ⟨left, behind, replacesLeft, replacesBehind, rfl⟩ := replaces.of_append
    obtain ⟨right, replacesRight, rfl⟩ := ReplacesAll.of_cons noLiteral noName replacesBehind
    obtain ⟨lhs, derivesLeft, substitutedLeft⟩ := ihFirst replacesLeft
    obtain ⟨rhs, derivesRight, substitutedRight⟩ := ihLast replacesRight
    exact ⟨_, .more derivesLeft isOperator derivesRight, .binary _ substitutedLeft substitutedRight⟩
  | literal index =>
    cases replaces.of_singleton with
    | @literal _ index' stands => exact ⟨_, .literal index', .literal stands⟩
    | itself noLiteral _ => exact absurd rfl (noLiteral index)
  | load slot =>
    cases replaces.of_singleton with
    | load derives' stands => exact ⟨_, derives', .load stands⟩
    | itself _ noName => exact absurd rfl (noName slot)
  | pi =>
    obtain ⟨nothing, replacesNothing, rfl⟩ := ReplacesAll.of_cons (by simp) (by simp) replaces
    rw [replacesNothing.of_nil]
    exact ⟨_, .pi, .pi⟩
  | group _ ih =>
    obtain ⟨inner, replacesInner, rfl⟩ := replaces.of_parentheses
    obtain ⟨expr', derives', substituted⟩ := ih replacesInner
    exact ⟨_, .group derives', .group substituted⟩
  | signed sign _ ih =>
    obtain ⟨operand, replacesOperand, rfl⟩ := ReplacesAll.of_cons (by simp) (by simp) replaces
    obtain ⟨expr', derives', substituted⟩ := ih replacesOperand
    exact ⟨_, .signed sign derives', .signed sign substituted⟩
  | call op _ ih =>
    obtain ⟨behind, replacesBehind, rfl⟩ := ReplacesAll.of_cons (by simp) (by simp) replaces
    obtain ⟨argument, replacesArgument, rfl⟩ := replacesBehind.of_parentheses
    obtain ⟨expr', derives', substituted⟩ := ih replacesArgument
    exact ⟨_, .call op derives', .call op substituted⟩

/-! ## Values -/

/-- A tree in which each literal has the value of the literal it stands for, and each tree the value
of the name it stands for, evaluates to what the other tree evaluates to. -/
theorem Expr.Substituted.evaluate_eq {before after : Valuation} {expr expr' : Expr}
    (h : expr.Substituted literal name expr')
    (literals : ∀ index index', literal index index' →
      after.literal index' = before.literal index)
    (names : ∀ slot inner, name slot inner → inner.evaluate after = .ok (before.slot slot)) :
    expr'.evaluate after = expr.evaluate before := by
  induction h with
  | literal stands => exact congrArg Except.ok (literals _ _ stands)
  | load stands => exact names _ _ stands
  | pi => rfl
  | group _ ih => exact ih
  | signed sign _ ih => rw [Expr.evaluate, Expr.evaluate, ih]
  | call op _ ih => rw [Expr.evaluate, Expr.evaluate, ih]
  | binary op _ _ ihLeft ihRight => rw [Expr.evaluate, Expr.evaluate, ihLeft, ihRight]

end TapeCalc
