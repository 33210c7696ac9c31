import TapeCalc.Proofs.Descent.Completeness

/-!
# One tree for every phrase

A sequence of tokens is a phrase of a rank in one way at most.  Operators of one rank group
to the left, so a phrase is a first operand that operators and further operands are added
to from the left.  Two phrases at the start of the same tokens that both end where their
rank stops add the same operands, one after the other.

The statement about a rank has two forms again: one for phrases at which the chain stops,
and one for the beginnings of a chain, which the other phrase goes on with.

Main definitions:

- {lit}`Continues`: operators and operands that are added to a tree.

Main results:

- Theorem {lit}`Derives.unique`: tokens have one tree at most.
-/

namespace TapeCalc

/-! ## Adding operands -/

/-- Operators of a rank and their right operands, added to a tree one after the other. -/
inductive Continues (rank : Rank) : Expr → List Token → Expr → Prop where
  | done (expr : Expr) : Continues rank expr [] expr
  | more {lhs rhs whole : Expr} {operator : Token} {op : BinaryOp} {right rest : List Token}
      (isOperator : rank.operator? operator = some op)
      (operand : Derives rank.tighter right rhs)
      (further : Continues rank (.binary op lhs rhs) rest whole) :
      Continues rank lhs (operator :: (right ++ rest)) whole

/-- One more operand behind all others. -/
theorem Continues.concat {rank : Rank} {lhs whole rhs : Expr} {tokens right : List Token}
    {operator : Token} {op : BinaryOp} (h : Continues rank lhs tokens whole)
    (isOperator : rank.operator? operator = some op) (operand : Derives rank.tighter right rhs) :
    Continues rank lhs (tokens ++ operator :: right) (.binary op whole rhs) := by
  induction h with
  | done expr =>
    have last := Continues.more isOperator operand (.done (.binary op expr rhs))
    simpa using last
  | more isOperator' operand' _ ih =>
    have further := Continues.more isOperator' operand' ih
    simpa using further

/-- A phrase is a first operand with further operands behind it. -/
theorem Derives.split {rank : Rank} {tokens : List Token} {expr : Expr}
    (derives : Derives rank tokens expr) (proper : rank ≠ .factor) :
    ∃ left rest lhs, tokens = left ++ rest ∧ Derives rank.tighter left lhs ∧
      Continues rank lhs rest expr := by
  induction derives with
  | @single rank tokens expr _ operand _ =>
    exact ⟨tokens, [], expr, by simp, operand, .done expr⟩
  | @more rank left right operator op lhs rhs _ isOperator last ihFirst _ =>
    obtain ⟨front, rest, first, rfl, operand, continues⟩ := ihFirst proper
    exact ⟨front, rest ++ operator :: right, first, by simp, operand,
      continues.concat isOperator last⟩
  | literal _ => exact absurd rfl proper
  | load _ => exact absurd rfl proper
  | pi => exact absurd rfl proper
  | group _ _ => exact absurd rfl proper
  | signed _ _ _ => exact absurd rfl proper
  | call _ _ _ => exact absurd rfl proper

/-- In front of what stops a phrase, further operands stop its first operand. -/
theorem Continues.stops {rank : Rank} {lhs whole : Expr} {tokens rest : List Token}
    (h : Continues rank lhs tokens whole) (stops : rank.Stops rest) :
    rank.tighter.Stops (tokens ++ rest) := by
  cases h with
  | done _ => exact stops.tighter
  | more isOperator _ _ => exact Rank.stops_operator _ isOperator

/-- Where a phrase stops nothing is added to it. -/
theorem Continues.eq_nil {rank : Rank} {lhs whole : Expr} {tokens rest : List Token}
    (h : Continues rank lhs tokens whole) (stops : rank.Stops (tokens ++ rest)) :
    tokens = [] ∧ whole = lhs := by
  cases h with
  | done _ => exact ⟨rfl, rfl⟩
  | more isOperator _ _ =>
    have none := stops.head
    simp [isOperator] at none

/-! ## Phrases at the start of the same tokens -/

/-- A phrase at the start of given tokens is the only one that ends where the rank stops. -/
def IsOnly (rank : Rank) (tokens : List Token) (expr : Expr) : Prop :=
  ∀ tokens' expr' rest rest', Derives rank tokens' expr' → tokens ++ rest = tokens' ++ rest' →
    rank.Stops rest → rank.Stops rest' → tokens = tokens' ∧ expr = expr'

/-- A phrase that ends where its last operand stops is the beginning of every phrase that ends
where the rank stops. -/
def IsBeginning (rank : Rank) (tokens : List Token) (expr : Expr) : Prop :=
  ∀ tokens' expr' rest rest', Derives rank tokens' expr' → tokens ++ rest = tokens' ++ rest' →
    rank.tighter.Stops rest → rank.Stops rest' →
    ∃ more, tokens' = tokens ++ more ∧ Continues rank expr more expr'

section Phrases

variable {rank : Rank} {tokens : List Token} {expr : Expr}

/-- A beginning that ends where the rank stops is the whole phrase. -/
theorem IsBeginning.isOnly (h : IsBeginning rank tokens expr) : IsOnly rank tokens expr := by
  intro tokens' expr' rest rest' derives same stops stops'
  obtain ⟨more, rfl, continues⟩ := h tokens' expr' rest rest' derives same stops.tighter stops'
  have left : rest = more ++ rest' := by
    rw [List.append_assoc] at same
    exact List.append_cancel_left same
  rw [left] at stops
  obtain ⟨rfl, rfl⟩ := continues.eq_nil stops
  exact ⟨(List.append_nil tokens).symm, rfl⟩

/-- The first operand is the beginning of a phrase. -/
theorem IsOnly.isBeginning (proper : rank ≠ .factor) (h : IsOnly rank.tighter tokens expr) :
    IsBeginning rank tokens expr := by
  intro tokens' expr' rest rest' derives same stops stops'
  obtain ⟨left, more, lhs, rfl, operand, continues⟩ := derives.split proper
  rw [List.append_assoc] at same
  obtain ⟨rfl, rfl⟩ := h left lhs rest (more ++ rest') operand same stops
    (continues.stops stops')
  exact ⟨more, rfl, continues⟩

/-- A beginning with one more operand is a beginning. -/
theorem IsBeginning.more {left right : List Token} {operator : Token} {op : BinaryOp}
    {lhs rhs : Expr} (first : IsBeginning rank left lhs)
    (isOperator : rank.operator? operator = some op) (last : IsOnly rank.tighter right rhs) :
    IsBeginning rank (left ++ operator :: right) (.binary op lhs rhs) := by
  intro tokens' expr' rest rest' derives same stops stops'
  rw [List.append_assoc, List.cons_append] at same
  obtain ⟨more, rfl, continues⟩ := first tokens' expr' _ rest' derives same
    (Rank.stops_operator _ isOperator) stops'
  rw [List.append_assoc] at same
  have behind := List.append_cancel_left same
  cases continues with
  | done _ =>
    -- The other phrase would end in front of an operator of its own rank.
    have none := stops'.head
    rw [List.nil_append] at behind
    simp [← behind, isOperator] at none
  | @more _ rhs' _ operator' op' right' further isOperator' operand continues =>
    rw [List.cons_append, List.append_assoc] at behind
    obtain ⟨rfl, inside⟩ := List.cons.inj behind
    cases isOperator.symm.trans isOperator'
    obtain ⟨rfl, rfl⟩ := last right' rhs' rest (further ++ rest') operand inside stops
      (continues.stops stops')
    exact ⟨further, by simp, continues⟩

/-- What stands in parentheses is the only phrase there. -/
theorem IsOnly.inParentheses (h : IsOnly .expression tokens expr) {tokens' : List Token}
    {expr' : Expr} {rest rest' : List Token} (derives : Derives .expression tokens' expr')
    (same : tokens ++ .rightParen :: rest = tokens' ++ .rightParen :: rest') :
    tokens = tokens' ∧ expr = expr' :=
  h tokens' expr' _ _ derives same (Rank.stops_rightParen _ rest) (Rank.stops_rightParen _ rest')

/-- A phrase of the tightest rank that is one token is the only one. -/
theorem isOnly_token {token : Token} {expr : Expr}
    (single : ∀ tokens' expr' rest rest', Derives .factor tokens' expr' →
      token :: rest = tokens' ++ rest' → tokens' = [token] ∧ expr' = expr) :
    IsOnly .factor [token] expr := by
  intro tokens' expr' rest rest' derives same _ _
  obtain ⟨rfl, rfl⟩ := single tokens' expr' rest rest' derives same
  exact ⟨rfl, rfl⟩

/-- A literal is the only phrase that starts with it. -/
theorem isOnly_literal (index : Nat) : IsOnly .factor [.constant index] (.literal index) := by
  refine isOnly_token ?_
  intro tokens' expr' rest rest' derives same
  cases derives with
  | single proper _ => exact absurd rfl proper
  | more _ isOperator _ => cases isOperator
  | literal index' =>
    simp only [List.cons_append, List.cons.injEq, Token.constant.injEq] at same
    simp [same.1]
  | _ => simp at same

/-- The name of a variable is the only phrase that starts with it. -/
theorem isOnly_load (slot : Slot) : IsOnly .factor [.load slot] (.load slot) := by
  refine isOnly_token ?_
  intro tokens' expr' rest rest' derives same
  cases derives with
  | single proper _ => exact absurd rfl proper
  | more _ isOperator _ => cases isOperator
  | load slot' =>
    simp only [List.cons_append, List.cons.injEq, Token.load.injEq] at same
    simp [same.1]
  | _ => simp at same

/-- The name of the circle constant is the only phrase that starts with it. -/
theorem isOnly_pi : IsOnly .factor [.pi] .pi := by
  refine isOnly_token ?_
  intro tokens' expr' rest rest' derives same
  cases derives with
  | single proper _ => exact absurd rfl proper
  | more _ isOperator _ => cases isOperator
  | pi => exact ⟨rfl, rfl⟩
  | _ => simp at same

/-- An expression in parentheses is the only phrase that starts with the left one. -/
theorem IsOnly.group (h : IsOnly .expression tokens expr) :
    IsOnly .factor (.leftParen :: tokens ++ [.rightParen]) (.group expr) := by
  intro tokens' expr' rest rest' derives same _ _
  cases derives with
  | single proper _ => exact absurd rfl proper
  | more _ isOperator _ => cases isOperator
  | group inner =>
    simp only [List.cons_append, List.append_assoc, List.cons.injEq, true_and] at same
    obtain ⟨rfl, rfl⟩ := h.inParentheses inner same
    exact ⟨rfl, rfl⟩
  | _ => simp at same

/-- A factor with a sign is the only phrase that starts with this sign. -/
theorem IsOnly.signed (sign : Sign) (h : IsOnly .factor tokens expr) :
    IsOnly .factor (.additive sign :: tokens) (.signed sign expr) := by
  intro tokens' expr' rest rest' derives same _ _
  cases derives with
  | single proper _ => exact absurd rfl proper
  | more _ isOperator _ => cases isOperator
  | signed sign' operand =>
    simp only [List.cons_append, List.cons.injEq, Token.additive.injEq] at same
    obtain ⟨rfl, same⟩ := same
    obtain ⟨rfl, rfl⟩ := h _ _ rest rest' operand same trivial trivial
    exact ⟨rfl, rfl⟩
  | _ => simp at same

/-- A function with its argument is the only phrase that starts with this function. -/
theorem IsOnly.call (op : UnaryOp) (h : IsOnly .expression tokens expr) :
    IsOnly .factor (.function op :: .leftParen :: tokens ++ [.rightParen]) (.call op expr) := by
  intro tokens' expr' rest rest' derives same _ _
  cases derives with
  | single proper _ => exact absurd rfl proper
  | more _ isOperator _ => cases isOperator
  | call op' argument =>
    simp only [List.cons_append, List.append_assoc, List.cons.injEq, Token.function.injEq,
      true_and] at same
    obtain ⟨rfl, same⟩ := same
    obtain ⟨rfl, rfl⟩ := h.inParentheses argument same
    exact ⟨rfl, rfl⟩
  | _ => simp at same

end Phrases

/-- Every phrase is the only one, and a phrase with operators is the beginning of others. -/
theorem Derives.isOnly {rank : Rank} {tokens : List Token} {expr : Expr}
    (derives : Derives rank tokens expr) :
    IsOnly rank tokens expr ∧ (rank ≠ .factor → IsBeginning rank tokens expr) := by
  have tightest {tokens : List Token} {expr : Expr} (h : IsOnly .factor tokens expr) :
      IsOnly .factor tokens expr ∧ (Rank.factor ≠ .factor → IsBeginning .factor tokens expr) :=
    ⟨h, fun impossible => absurd rfl impossible⟩
  induction derives with
  | single proper _ ih =>
    have beginning := ih.1.isBeginning proper
    exact ⟨beginning.isOnly, fun _ => beginning⟩
  | more _ isOperator _ ihFirst ihLast =>
    have beginning := (ihFirst.2 (Rank.ne_factor isOperator)).more isOperator ihLast.1
    exact ⟨beginning.isOnly, fun _ => beginning⟩
  | literal index => exact tightest (isOnly_literal index)
  | load slot => exact tightest (isOnly_load slot)
  | pi => exact tightest isOnly_pi
  | group _ ih => exact tightest ih.1.group
  | signed sign _ ih => exact tightest (ih.1.signed sign)
  | call op _ ih => exact tightest (ih.1.call op)

/-- A sequence of tokens has at most one tree. -/
theorem Derives.unique {rank : Rank} {tokens : List Token} {expr expr' : Expr}
    (derives : Derives rank tokens expr) (derives' : Derives rank tokens expr') :
    expr = expr' :=
  (derives.isOnly.1 tokens expr' [] [] derives' rfl (Rank.stops_nil rank)
    (Rank.stops_nil rank)).2

end TapeCalc
