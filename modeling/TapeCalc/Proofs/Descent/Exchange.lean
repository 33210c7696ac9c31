import TapeCalc.Proofs.Descent.Trace
import TapeCalc.Proofs.Expr.Exchange

/-!
# Descents over exchanged variables

A descent treats both variables in the same way: it plants the instruction that the lexeme stands
for.  If the lexemes of a feed have their variables exchanged, and the instructions are exchanged
back before they are planted, then a descent does what it did.

Main definitions:

- {lit}`Feed.exchanged`: a feed whose lexemes have their variables exchanged.

Main results:

- Theorem {lit}`Feed.whole_exchanged`: a descent over such a feed.
-/

namespace TapeCalc

namespace Feed

variable {σ : Type} (feed : Feed σ)

/-- The feed whose lexemes have their variables exchanged.  What it is given to plant has its
variables exchanged back. -/
def exchanged : Feed σ where
  current := fun state => (feed.current state).map Token.exchanged
  column := feed.column
  advance := feed.advance
  plant := fun opcode => feed.plant opcode.exchanged
  plantConstant := feed.plantConstant

/-- Planting still leaves the lexeme that is looked at. -/
theorem Lawful.exchanged {feed : Feed σ} (lawful : feed.Lawful) : feed.exchanged.Lawful where
  current_of_plant planted :=
    congrArg (Option.map Token.exchanged) (lawful.current_of_plant planted)
  current_of_plantConstant planted :=
    congrArg (Option.map Token.exchanged) (lawful.current_of_plantConstant planted)

/-- Going past a lexeme that is no variable. -/
theorem expect_exchanged {token : Token} (plain : token.exchanged = token) (code : FaultCode) :
    Descent.expect feed.exchanged token code = Descent.expect feed token code := by
  funext state
  have same : feed.exchanged.current state = some token ↔ feed.current state = some token := by
    change (feed.current state).map Token.exchanged = some token ↔ _
    rw [Option.map_eq_some_iff]
    constructor
    · rintro ⟨other, looking, same⟩
      rw [looking, ← other.exchanged_exchanged, same, plain]
    · intro looking
      exact ⟨token, looking, plain⟩
  rw [Descent.expect, Descent.expect, Action.get_bind, Action.get_bind]
  by_cases looking : feed.current state = some token
  · rw [if_pos looking, if_pos (same.mpr looking)]
    rfl
  · rw [if_neg looking, if_neg (fun found => looking (same.mp found))]
    rfl

/-- Operators of one rank. -/
theorem chain_exchanged (rank : Rank) (operand : Action σ Unit) (rounds : Nat) :
    Descent.chain feed.exchanged rank.operator? operand rounds =
      Descent.chain feed rank.operator? operand rounds := by
  induction rounds with
  | zero => rfl
  | succ rounds ih =>
    funext state
    have same : (feed.exchanged.current state).bind rank.operator? =
        (feed.current state).bind rank.operator? := by
      change ((feed.current state).map Token.exchanged).bind _ = _
      cases feed.current state with
      | none => rfl
      | some token => exact rank.operator?_exchanged token
    cases found : (feed.current state).bind rank.operator? with
    | none => rw [Descent.chain_of_none found, Descent.chain_of_none (same.trans found)]
    | some op =>
      rw [Descent.chain_of_some found, Descent.chain_of_some (same.trans found), ih]
      rfl

/-- All three ranks of operators. -/
theorem expression_exchanged (rounds : Nat) :
    Descent.expression feed.exchanged rounds = Descent.expression feed rounds := by
  funext operand
  have additive := feed.chain_exchanged .expression
  have multiplicative := feed.chain_exchanged .term
  have power := feed.chain_exchanged .power
  simp only [Rank.operator?] at additive multiplicative power
  simp only [Descent.expression, Descent.ranked, additive, multiplicative, power]

/-- One level deeper. -/
theorem nested_exchanged (inner? : Option (Action σ Unit)) :
    Descent.nested feed.exchanged inner? = Descent.nested feed inner? := by
  cases inner? <;> rfl

/-- Operands, given what stands one level deeper. -/
theorem factorOver_exchanged (rounds : Nat) (inner? : Option (Action σ Unit)) :
    Descent.factorOver feed.exchanged rounds inner? = Descent.factorOver feed rounds inner? := by
  funext state
  rw [Descent.factorOver, Descent.factorOver, Action.get_bind, Action.get_bind,
    expression_exchanged, nested_exchanged, nested_exchanged, expect_exchanged feed rfl,
    expect_exchanged feed rfl]
  have same : feed.exchanged.current state = (feed.current state).map Token.exchanged := rfl
  rw [same]
  cases feed.current state with
  | none => rfl
  | some token =>
    cases token with
    | load slot => cases slot <;> rfl
    | _ => rfl

/-- Operands with a number of levels left. -/
theorem factor_exchanged (rounds levels : Nat) :
    Descent.factor feed.exchanged rounds levels = Descent.factor feed rounds levels := by
  induction levels with
  | zero => exact feed.factorOver_exchanged rounds none
  | succ levels ih =>
    rw [Descent.factor, Descent.factor, ih]
    exact feed.factorOver_exchanged rounds (some (Descent.factor feed rounds levels))

/-- A descent over exchanged variables does what the descent does. -/
theorem whole_exchanged (rounds maxDepth : Nat) :
    Descent.whole feed.exchanged rounds maxDepth = Descent.whole feed rounds maxDepth := by
  have missing (state : σ) :
      (feed.exchanged.current state).isNone = (feed.current state).isNone := Option.isNone_map
  have more (state : σ) :
      (feed.exchanged.current state).isSome = (feed.current state).isSome := Option.isSome_map
  simp only [Descent.whole, missing, more, expression_exchanged, factor_exchanged]
  rfl

end Feed

end TapeCalc
