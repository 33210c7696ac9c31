import TapeCalc.Proofs.Descent.Trace

/-!
# Faults at other places

If the lexemes of a feed stand at other places, nothing changes but the ranges that its faults
point at.  So a descent over a feed with other ranges does what the descent does, and only its
fault points elsewhere.

Main definitions:

- {lit}`Action.relocated`: an action whose faults point at other ranges.
- {lit}`Feed.relocated`: a feed with other ranges.

Main results:

- Theorem {lit}`Feed.complete_relocated`: a descent over a feed with other ranges.
-/

namespace TapeCalc

variable {σ α β : Type}

/-- The result with its fault at another range. -/
def relocateFault (change : Span → Span) :
    EStateM.Result Fault σ α → EStateM.Result Fault σ α
  | .ok value after => .ok value after
  | .error fault after => .error (fault.inColumn (change fault.column)) after

namespace Action

/-- The action with its faults at other ranges. -/
def relocated (change : Span → Span) (step : Action σ α) : Action σ α :=
  fun state => relocateFault change (step state)

variable {change : Span → Span}

/-- Steps in a row with their faults at other ranges. -/
theorem relocated_bind (first : Action σ α) (second : α → Action σ β) :
    (first >>= second).relocated change =
      first.relocated change >>= fun value => (second value).relocated change := by
  funext before
  rw [relocated]
  cases result : first before with
  | ok value after =>
    have moved : first.relocated change before = .ok value after := by
      rw [relocated, result, relocateFault]
    rw [bind_of_ok result, bind_of_ok moved]
    rfl
  | error fault after =>
    have moved : first.relocated change before =
        .error (fault.inColumn (change fault.column)) after := by
      rw [relocated, result, relocateFault]
    rw [bind_of_error result, bind_of_error moved]
    rfl

end Action

namespace Feed

/-- The feed with its lexemes, and so its faults, at other ranges. -/
def relocated (change : Span → Span) (feed : Feed σ) : Feed σ where
  current := feed.current
  column := fun state => change (feed.column state)
  advance := feed.advance.relocated change
  plant := fun opcode => (feed.plant opcode).relocated change
  plantConstant := fun index => (feed.plantConstant index).relocated change

variable {feed : Feed σ} {change : Span → Span}

/-- A success at other ranges is a success. -/
theorem of_relocateFault_ok {result : EStateM.Result Fault σ α} {value : α} {after : σ}
    (h : relocateFault change result = .ok value after) : result = .ok value after := by
  cases result with
  | ok _ _ => exact h
  | error _ _ => cases h

/-- At other ranges planting still leaves the lexeme that is looked at. -/
theorem Lawful.relocated (lawful : feed.Lawful) (change : Span → Span) :
    (feed.relocated change).Lawful where
  current_of_plant planted := lawful.current_of_plant (of_relocateFault_ok planted)
  current_of_plantConstant planted := lawful.current_of_plantConstant (of_relocateFault_ok planted)

/-- Going past a lexeme that has to be there. -/
theorem expect_relocated (token : Token) (code : FaultCode) :
    Descent.expect (feed.relocated change) token code =
      (Descent.expect feed token code).relocated change := by
  funext state
  rw [Action.relocated, Descent.expect, Descent.expect, Action.get_bind, Action.get_bind]
  have same : (feed.relocated change).current state = feed.current state := rfl
  rw [same]
  split <;> rfl

/-- Operators of one rank. -/
theorem chain_relocated (operator? : Token → Option BinaryOp) (operand : Action σ Unit)
    (rounds : Nat) :
    Descent.chain (feed.relocated change) operator? (operand.relocated change) rounds =
      (Descent.chain feed operator? operand rounds).relocated change := by
  induction rounds with
  | zero => rfl
  | succ rounds ih =>
    funext state
    cases found : (feed.current state).bind operator? with
    | none =>
      have found' : ((feed.relocated change).current state).bind operator? = none := found
      rw [Action.relocated, Descent.chain_of_none found, Descent.chain_of_none found']
      rfl
    | some op =>
      have found' : ((feed.relocated change).current state).bind operator? = some op := found
      rw [Action.relocated, Descent.chain_of_some found, Descent.chain_of_some found', ih]
      change _ = Action.relocated change _ state
      simp only [Action.relocated_bind]
      rfl

/-- An operand with operators of one rank behind it. -/
theorem ranked_relocated (rounds : Nat) (operator? : Token → Option BinaryOp)
    (operand : Action σ Unit) :
    Descent.ranked (feed.relocated change) rounds operator? (operand.relocated change) =
      (Descent.ranked feed rounds operator? operand).relocated change := by
  rw [Descent.ranked, Descent.ranked, Action.relocated_bind, chain_relocated]

/-- All three ranks of operators. -/
theorem expression_relocated (rounds : Nat) (operand : Action σ Unit) :
    Descent.expression (feed.relocated change) rounds (operand.relocated change) =
      (Descent.expression feed rounds operand).relocated change := by
  simp only [Descent.expression, ranked_relocated]

/-- One level deeper. -/
theorem nested_relocated (inner? : Option (Action σ Unit)) :
    Descent.nested (feed.relocated change) (inner?.map (Action.relocated change)) =
      (Descent.nested feed inner?).relocated change := by
  cases inner? <;> rfl

/-- One level deeper, where an expression may stand. -/
theorem nested_expression_relocated (rounds : Nat) (inner? : Option (Action σ Unit)) :
    Descent.nested (feed.relocated change)
        ((inner?.map (Action.relocated change)).map
          (Descent.expression (feed.relocated change) rounds)) =
      (Descent.nested feed (inner?.map (Descent.expression feed rounds))).relocated change := by
  rw [← nested_relocated, Option.map_map, Option.map_map]
  congr 2
  exact funext fun operand => expression_relocated rounds operand

/-- Operands, given what stands one level deeper. -/
theorem factorOver_relocated (rounds : Nat) (inner? : Option (Action σ Unit)) :
    Descent.factorOver (feed.relocated change) rounds (inner?.map (Action.relocated change)) =
      (Descent.factorOver feed rounds inner?).relocated change := by
  funext state
  have same : (feed.relocated change).current state = feed.current state := rfl
  rw [Action.relocated, Descent.factorOver, Descent.factorOver, Action.get_bind, Action.get_bind,
    same, nested_expression_relocated, nested_relocated, expect_relocated, expect_relocated]
  change _ = Action.relocated change _ state
  cases feed.current state with
  | none => rfl
  | some token =>
    cases token with
    | additive sign =>
      simp only [Action.relocated_bind]
      cases sign <;> rfl
    | _ =>
      simp only [Action.relocated_bind]
      rfl

/-- Operands with a number of levels left. -/
theorem factor_relocated (rounds levels : Nat) :
    Descent.factor (feed.relocated change) rounds levels =
      (Descent.factor feed rounds levels).relocated change := by
  induction levels with
  | zero => exact factorOver_relocated rounds none
  | succ levels ih =>
    rw [Descent.factor, Descent.factor, ih]
    exact factorOver_relocated rounds (some (Descent.factor feed rounds levels))

/-- One expression and nothing behind it. -/
theorem complete_relocated (rounds maxDepth : Nat) :
    (feed.relocated change).complete rounds maxDepth =
      (feed.complete rounds maxDepth).relocated change := by
  rw [complete, complete, factor_relocated, expression_relocated, Action.relocated_bind]
  congr 1
  funext _ state
  have same : (feed.relocated change).current state = feed.current state := rfl
  rw [Action.relocated, Action.get_bind, Action.get_bind, same]
  split <;> rfl

end Feed

end TapeCalc
