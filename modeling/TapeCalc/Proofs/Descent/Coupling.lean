import TapeCalc.Proofs.Descent.Trace

/-!
# Two descents side by side

Two descents that look at the same lexemes take the same way, whatever their feeds are
made of.  So two feeds only have to be compared step by step: when their steps lead from
related states to related states or fail with one fault, their descents do.

The first of the two may be cut off by a fault that the second is spared.  From there on
nothing is said about the second, and this is the only way in which the two can part.

Main definitions:

- {lit}`Feed.Coupled`: two feeds whose steps belong together.

Main results:

- Theorem {lit}`Feed.Coupled.factor`: operands, with no fewer levels in the second descent.
- Theorem {lit}`Feed.Coupled.whole`: whole descents.
-/

namespace TapeCalc

variable {σ τ : Type}

namespace Feed

/-! ## Two feeds -/

/-- Two feeds whose steps belong together.  Only a lexeme that is looked at is ever passed. -/
structure Coupled (feed : Feed σ) (feed' : Feed τ) (related : σ → τ → Prop)
    (cut : Fault → Prop) : Prop where
  lawful : feed.Lawful
  current {left : σ} {right : τ} : related left right →
    feed'.current right = feed.current left
  column {left : σ} {right : τ} : related left right → feed'.column right = feed.column left
  advance {left : σ} {right : τ} : related left right → (feed.current left).isSome →
    Action.Couples related cut (feed.advance left) (feed'.advance right)
  plant (opcode : Opcode) {left : σ} {right : τ} : related left right →
    Action.Couples related cut (feed.plant opcode left) (feed'.plant opcode right)
  plantConstant (index : Nat) {left : σ} {right : τ} : related left right →
    Action.Couples related cut (feed.plantConstant index left) (feed'.plantConstant index right)

namespace Coupled

variable {feed : Feed σ} {feed' : Feed τ} {related : σ → τ → Prop} {cut : Fault → Prop}

/-- Two actions that belong together in related states. -/
def Pair (related : σ → τ → Prop) (cut : Fault → Prop) (action : Action σ Unit)
    (action' : Action τ Unit) : Prop :=
  ∀ left right, related left right → Action.Couples related cut (action left) (action' right)

/-- Failing at the lexeme that is looked at. -/
theorem fail (h : feed.Coupled feed' related cut) (code : FaultCode) (detail : String) :
    Pair related cut (Descent.fail feed code detail) (Descent.fail feed' code detail) := by
  intro left right states
  unfold Descent.fail
  rw [h.column states]
  exact .fault

/-- Going past a lexeme that has to be there. -/
theorem expect (h : feed.Coupled feed' related cut) (token : Token) (code : FaultCode) :
    Pair related cut (Descent.expect feed token code) (Descent.expect feed' token code) := by
  intro left right states
  rw [Descent.expect, Descent.expect, Action.get_bind, Action.get_bind, h.current states]
  by_cases looking : feed.current left = some token
  · rw [if_pos looking, if_pos looking]
    exact h.advance states (by simp [looking])
  · rw [if_neg looking, if_neg looking]
    exact h.fail code "" left right states

/-- Operators of one rank with operands that belong together. -/
theorem chain (h : feed.Coupled feed' related cut) (operator? : Token → Option BinaryOp)
    {operand : Action σ Unit} {operand' : Action τ Unit}
    (operands : Pair related cut operand operand') (rounds : Nat) :
    Pair related cut (Descent.chain feed operator? operand rounds)
      (Descent.chain feed' operator? operand' rounds) := by
  induction rounds with
  | zero =>
    intro left right states
    exact .ok states
  | succ rounds ih =>
    intro left right states
    have same : (feed'.current right).bind operator? = (feed.current left).bind operator? := by
      rw [h.current states]
    cases found : (feed.current left).bind operator? with
    | none =>
      rw [Descent.chain_of_none found, Descent.chain_of_none (same.trans found)]
      exact .ok states
    | some op =>
      have looking : (feed.current left).isSome := by
        cases current : feed.current left with
        | none => simp [current] at found
        | some token => rfl
      rw [Descent.chain_of_some found, Descent.chain_of_some (same.trans found)]
      refine (h.advance states looking).bind ?_
      intro _ afterOperator afterOperator' _ states
      refine (operands _ _ states).bind ?_
      intro _ afterOperand afterOperand' _ states
      refine (h.plant (.binary op) states).bind ?_
      intro _ afterPlant afterPlant' _ states
      exact ih _ _ states

/-- An operand with operators of one rank behind it. -/
theorem ranked (h : feed.Coupled feed' related cut) (rounds : Nat)
    (operator? : Token → Option BinaryOp) {operand : Action σ Unit} {operand' : Action τ Unit}
    (operands : Pair related cut operand operand') :
    Pair related cut (Descent.ranked feed rounds operator? operand)
      (Descent.ranked feed' rounds operator? operand') := by
  intro left right states
  refine (operands _ _ states).bind ?_
  intro _ mid mid' _ states
  exact h.chain operator? operands rounds _ _ states

/-- All three ranks of operators. -/
theorem expression (h : feed.Coupled feed' related cut) (rounds : Nat) {operand : Action σ Unit}
    {operand' : Action τ Unit} (operands : Pair related cut operand operand') :
    Pair related cut (Descent.expression feed rounds operand)
      (Descent.expression feed' rounds operand') :=
  h.ranked rounds _ (h.ranked rounds _ (h.ranked rounds _ operands))

/-- What may stand one level deeper: nothing in both descents, actions that belong together, or
nothing in the first descent only, which is then cut off. -/
inductive Inner (related : σ → τ → Prop) (cut : Fault → Prop) :
    Option (Action σ Unit) → Option (Action τ Unit) → Prop where
  | none : Inner related cut none none
  | some {inner : Action σ Unit} {inner' : Action τ Unit} (pair : Pair related cut inner inner') :
      Inner related cut (some inner) (some inner')
  | cut {inner' : Action τ Unit}
      (cutOff : ∀ fault : Fault, fault.code = .tooDeeplyNested → cut fault) :
      Inner related cut none (some inner')

/-- Expressions stand one level deeper where operands do. -/
theorem Inner.expression (h : feed.Coupled feed' related cut) (rounds : Nat)
    {inner? : Option (Action σ Unit)} {inner?' : Option (Action τ Unit)}
    (inner : Inner related cut inner? inner?') :
    Inner related cut (inner?.map (Descent.expression feed rounds))
      (inner?'.map (Descent.expression feed' rounds)) := by
  cases inner with
  | none => exact .none
  | some pair => exact .some (h.expression rounds pair)
  | cut cutOff => exact .cut cutOff

/-- One level deeper. -/
theorem nested (h : feed.Coupled feed' related cut) {inner? : Option (Action σ Unit)}
    {inner?' : Option (Action τ Unit)} (inner : Inner related cut inner? inner?') :
    Pair related cut (Descent.nested feed inner?) (Descent.nested feed' inner?') := by
  intro left right states
  cases inner with
  | none => exact h.fail .tooDeeplyNested "" left right states
  | some pair => exact pair left right states
  | cut cutOff => exact .cut (cutOff _ rfl)

/-- Operands, given what may stand one level deeper. -/
theorem factorOver (h : feed.Coupled feed' related cut) (rounds : Nat)
    {inner? : Option (Action σ Unit)} {inner?' : Option (Action τ Unit)}
    (inner : Inner related cut inner? inner?') :
    Pair related cut (Descent.factorOver feed rounds inner?)
      (Descent.factorOver feed' rounds inner?') := by
  have nestedOperand := h.nested inner
  have nestedExpression := h.nested (inner.expression h rounds)
  intro left right states
  rw [Descent.factorOver, Descent.factorOver, Action.get_bind, Action.get_bind, h.current states]
  cases looking : feed.current left with
  | none => exact h.fail _ _ left right states
  | some token =>
    have present : (feed.current left).isSome := by simp [looking]
    cases token with
    | constant index =>
      refine (h.plantConstant index states).bind ?_
      intro _ mid mid' planted states
      have kept := h.lawful.current_of_plantConstant planted
      exact h.advance states (by simp [kept, looking])
    | load slot =>
      refine (h.plant (.load slot) states).bind ?_
      intro _ mid mid' planted states
      have kept := h.lawful.current_of_plant planted
      exact h.advance states (by simp [kept, looking])
    | pi =>
      refine (h.plant .pi states).bind ?_
      intro _ mid mid' planted states
      have kept := h.lawful.current_of_plant planted
      exact h.advance states (by simp [kept, looking])
    | leftParen =>
      refine (h.advance states present).bind ?_
      intro _ inside inside' _ states
      refine (nestedExpression _ _ states).bind ?_
      intro _ behind behind' _ states
      exact h.expect _ _ _ _ states
    | additive sign =>
      refine (h.advance states present).bind ?_
      intro _ operand operand' _ states
      refine (nestedOperand _ _ states).bind ?_
      intro _ behind behind' _ states
      cases sign with
      | plus => exact .ok states
      | minus => exact h.plant (.unary .neg) states
    | function op =>
      refine (h.advance states present).bind ?_
      intro _ name name' _ states
      refine (h.expect _ _ _ _ states).bind ?_
      intro _ inside inside' _ states
      refine (nestedExpression _ _ states).bind ?_
      intro _ behind behind' _ states
      refine (h.expect _ _ _ _ states).bind ?_
      intro _ call call' _ states
      exact h.plant (.unary op) states
    | multiplicative _ => exact h.fail _ _ left right states
    | power => exact h.fail _ _ left right states
    | rightParen => exact h.fail _ _ left right states

/-- Operands, with no fewer levels of nesting in the second descent.  With fewer levels the first
one may be cut off for its depth. -/
theorem factor (h : feed.Coupled feed' related cut) (rounds : Nat) {levels levels' : Nat}
    (le : levels ≤ levels')
    (cutOff : levels < levels' → ∀ fault : Fault, fault.code = .tooDeeplyNested → cut fault) :
    Pair related cut (Descent.factor feed rounds levels)
      (Descent.factor feed' rounds levels') := by
  induction levels generalizing levels' with
  | zero =>
    cases levels' with
    | zero => exact h.factorOver rounds .none
    | succ levels' => exact h.factorOver rounds (.cut (cutOff (Nat.succ_pos levels')))
  | succ levels ih =>
    cases levels' with
    | zero => exact absurd le (Nat.not_succ_le_zero levels)
    | succ levels' =>
      have inner := ih (Nat.le_of_succ_le_succ le) fun fewer => cutOff (Nat.succ_lt_succ fewer)
      exact h.factorOver rounds (.some inner)

/-- Whole descents that start with a first lexeme each. -/
theorem whole (h : feed.Coupled feed' related cut) (rounds : Nat) {maxDepth maxDepth' : Nat}
    (le : maxDepth ≤ maxDepth')
    (cutOff : maxDepth < maxDepth' → ∀ fault : Fault, fault.code = .tooDeeplyNested → cut fault)
    {start : σ} {start' : τ}
    (first : Action.Couples related cut (feed.advance start) (feed'.advance start')) :
    Action.Couples related cut (Descent.whole feed rounds maxDepth start)
      (Descent.whole feed' rounds maxDepth' start') := by
  have factors := h.factor rounds le cutOff
  refine first.bind ?_
  intro _ state state' _ states
  rw [Action.get_bind, Action.get_bind, h.current states]
  by_cases missing : (feed.current state).isNone = true
  · rw [if_pos missing, if_pos missing]
    exact .fault
  · rw [if_neg missing, if_neg missing]
    refine (h.expression rounds factors _ _ states).bind ?_
    intro _ last last' _ states
    rw [Action.get_bind, Action.get_bind, h.current states]
    by_cases more : (feed.current last).isSome = true
    · rw [if_pos more, if_pos more]
      exact h.fail _ _ _ _ states
    · rw [if_neg more, if_neg more]
      exact .ok states

end Coupled

end Feed

end TapeCalc
