import TapeCalc.Proofs.Descent.Trace

/-!
# Rounds of a descent

Operators of one rank are read in rounds, and the number of rounds is given in advance.  Each
round goes past a lexeme, so if every lexeme lessens the size of the state, a descent from a
state whose size is below the number of rounds never uses them up.  Then it does the same with
any other number of rounds that is large enough.

Main definitions:

- {lit}`Feed.Lessens`: a size that going past a lexeme lessens.
- {lit}`SameBelow`: actions that do the same in all states below a size.

Main results:

- Theorem {lit}`Feed.Lessens.sameBelow_factor`: operands, with two numbers of rounds.
- Theorem {lit}`Feed.Lessens.whole_eq`: a whole descent does not depend on its rounds.
-/

namespace TapeCalc

variable {σ : Type}

/-- Steps in a row do the same if the first ones do, and the second ones in the state that the
first ones reach. -/
theorem Action.bind_congr {α β : Type} {first first' : Action σ α} {second second' : α → Action σ β}
    {before : σ} (same : first before = first' before)
    (next : ∀ value after, first before = .ok value after →
      second value after = second' value after) :
    (first >>= second) before = (first' >>= second') before := by
  cases result : first before with
  | ok value after =>
    rw [Action.bind_of_ok result, Action.bind_of_ok (same.symm.trans result)]
    exact next value after result
  | error fault after =>
    rw [Action.bind_of_error result, Action.bind_of_error (same.symm.trans result)]

/-- Two actions that do the same in all states below a size. -/
def SameBelow (size : σ → Nat) (bound : Nat) (action action' : Action σ Unit) : Prop :=
  ∀ state, size state < bound → action state = action' state

namespace Feed

/-- A size of states that going past a lexeme lessens, and that planting does not raise. -/
structure Lessens (feed : Feed σ) (size : σ → Nat) : Prop where
  advance {before after : σ} : (feed.current before).isSome →
    feed.advance before = .ok () after → size after < size before
  plant {opcode : Opcode} {before after : σ} :
    feed.plant opcode before = .ok () after → size after ≤ size before
  plantConstant {index : Nat} {before after : σ} :
    feed.plantConstant index before = .ok () after → size after ≤ size before

variable {feed : Feed σ} {size : σ → Nat}

/-- Along a trace the size is not raised. -/
theorem Trace.size_le (lessens : feed.Lessens size) {before after : σ} {tokens : List Token}
    {words : List Word} (trace : feed.Trace before tokens words after) :
    size after ≤ size before := by
  induction trace with
  | refl state => exact Nat.le_refl _
  | advance looking moved _ ih =>
    have less := lessens.advance (by simp [looking]) moved
    omega
  | plant planted _ ih => exact Nat.le_trans ih (lessens.plant planted)
  | plantConstant _ planted _ ih => exact Nat.le_trans ih (lessens.plantConstant planted)

/-- Reading a phrase does not raise the size. -/
theorem Reads.size_le (lessens : feed.Lessens size) {rank : Rank} {levels : Nat}
    {action : Action σ Unit} (reads : feed.Reads rank levels action) {before after : σ}
    (done : action before = .ok () after) : size after ≤ size before := by
  have ends := reads before
  rw [done] at ends
  obtain ⟨tokens, words, trace, _⟩ := ends
  exact trace.size_le lessens

namespace Lessens

variable {rounds rounds' bound levels : Nat}

/-- Operators of one rank, with rounds for a state of its size in both chains. -/
theorem chain_eq (lessens : feed.Lessens size) {operator? : Token → Option BinaryOp}
    {rank : Rank} {operand operand' : Action σ Unit} (reads : feed.Reads rank levels operand)
    (same : SameBelow size bound operand operand') {before : σ} (below : size before < bound)
    (enough : size before < rounds) (enough' : size before < rounds') :
    Descent.chain feed operator? operand rounds before =
      Descent.chain feed operator? operand' rounds' before := by
  induction rounds generalizing rounds' before with
  | zero => exact absurd enough (Nat.not_lt_zero _)
  | succ rounds ih =>
    cases rounds' with
    | zero => exact absurd enough' (Nat.not_lt_zero _)
    | succ rounds' =>
      cases found : (feed.current before).bind operator? with
      | none => rw [Descent.chain_of_none found, Descent.chain_of_none found]
      | some op =>
        obtain ⟨operator, looking, _⟩ := Option.bind_eq_some_iff.mp found
        rw [Descent.chain_of_some found, Descent.chain_of_some found]
        refine Action.bind_congr rfl fun _ afterOperator moved => ?_
        have less := lessens.advance (by simp [looking]) moved
        refine Action.bind_congr (same _ (Nat.lt_trans less below)) fun _ afterOperand done => ?_
        have kept := reads.size_le lessens done
        refine Action.bind_congr rfl fun _ afterPlant planted => ?_
        have planting := lessens.plant planted
        exact ih (by omega) (by omega) (by omega)

/-- An operand with operators of one rank behind it. -/
theorem sameBelow_ranked (lessens : feed.Lessens size) {operator? : Token → Option BinaryOp}
    {rank : Rank} {operand operand' : Action σ Unit} (reads : feed.Reads rank levels operand)
    (same : SameBelow size bound operand operand') (le : bound ≤ rounds) (le' : bound ≤ rounds') :
    SameBelow size bound (Descent.ranked feed rounds operator? operand)
      (Descent.ranked feed rounds' operator? operand') := by
  intro before below
  refine Action.bind_congr (same before below) fun _ mid done => ?_
  have kept := reads.size_le lessens done
  exact lessens.chain_eq reads same (by omega) (by omega) (by omega)

/-- All three ranks of operators. -/
theorem sameBelow_expression (lessens : feed.Lessens size) (lawful : feed.Lawful)
    {operand operand' : Action σ Unit} (reads : feed.Reads .factor levels operand)
    (same : SameBelow size bound operand operand') (le : bound ≤ rounds) (le' : bound ≤ rounds') :
    SameBelow size bound (Descent.expression feed rounds operand)
      (Descent.expression feed rounds' operand') := by
  have power : SameBelow size bound (Descent.ranked feed rounds Token.power? operand)
      (Descent.ranked feed rounds' Token.power? operand') :=
    lessens.sameBelow_ranked reads same le le'
  have readsPower := reads_production lawful reads rounds .power
  have term : SameBelow size bound
      (Descent.ranked feed rounds Token.multiplicative?
        (Descent.ranked feed rounds Token.power? operand))
      (Descent.ranked feed rounds' Token.multiplicative?
        (Descent.ranked feed rounds' Token.power? operand')) :=
    lessens.sameBelow_ranked readsPower power le le'
  have readsTerm := reads_production lawful reads rounds .term
  exact lessens.sameBelow_ranked readsTerm term le le'

/-- What stands one level deeper: nothing, or two actions that do the same. -/
inductive SameInner (size : σ → Nat) (bound : Nat) :
    Option (Action σ Unit) → Option (Action σ Unit) → Prop where
  | none : SameInner size bound none none
  | some {inner inner' : Action σ Unit} (same : SameBelow size bound inner inner') :
      SameInner size bound (some inner) (some inner')

/-- One level deeper. -/
theorem SameInner.nested {inner? inner?' : Option (Action σ Unit)}
    (same : SameInner size bound inner? inner?') :
    SameBelow size bound (Descent.nested feed inner?) (Descent.nested feed inner?') := by
  cases same with
  | none => exact fun _ _ => rfl
  | some same => exact same

/-- Operands, given what stands one level deeper. -/
theorem sameBelow_factorOver (lessens : feed.Lessens size) {inner? inner?' : Option (Action σ Unit)}
    (operands : SameInner size bound inner? inner?')
    (expressions : SameInner size bound (inner?.map (Descent.expression feed rounds))
      (inner?'.map (Descent.expression feed rounds'))) :
    SameBelow size bound (Descent.factorOver feed rounds inner?)
      (Descent.factorOver feed rounds' inner?') := by
  intro before below
  rw [Descent.factorOver, Descent.factorOver, Action.get_bind, Action.get_bind]
  cases looking : feed.current before with
  | none => rfl
  | some token =>
    have present : (feed.current before).isSome := by simp [looking]
    cases token with
    | leftParen =>
      refine Action.bind_congr rfl fun _ inside moved => ?_
      have less := lessens.advance present moved
      exact Action.bind_congr (expressions.nested _ (by omega)) fun _ _ _ => rfl
    | additive sign =>
      refine Action.bind_congr rfl fun _ operand moved => ?_
      have less := lessens.advance present moved
      exact Action.bind_congr (operands.nested _ (by omega)) fun _ _ _ => rfl
    | function op =>
      refine Action.bind_congr rfl fun _ name moved => ?_
      have less := lessens.advance present moved
      refine Action.bind_congr rfl fun _ inside opened => ?_
      obtain ⟨_, _, trace, _⟩ : feed.Ends name (fun _ _ _ => True) (.ok () inside) :=
        opened ▸ (ends_expect .leftParen (by simp [grammarFaults])).mono fun _ _ _ _ => trivial
      have kept := trace.size_le lessens
      exact Action.bind_congr (expressions.nested _ (by omega)) fun _ _ _ => rfl
    | _ => rfl

/-- Operands, with two numbers of rounds that are large enough. -/
theorem sameBelow_factor (lessens : feed.Lessens size) (lawful : feed.Lawful)
    (le : bound ≤ rounds) (le' : bound ≤ rounds') (levels : Nat) :
    SameBelow size bound (Descent.factor feed rounds levels)
      (Descent.factor feed rounds' levels) := by
  induction levels with
  | zero => exact lessens.sameBelow_factorOver .none .none
  | succ levels ih =>
    have reads := reads_factor lawful rounds levels
    exact lessens.sameBelow_factorOver (.some ih)
      (.some (lessens.sameBelow_expression lawful reads ih le le'))

/-- One expression and nothing behind it. -/
theorem sameBelow_complete (lessens : feed.Lessens size) (lawful : feed.Lawful)
    (le : bound ≤ rounds) (le' : bound ≤ rounds') (maxDepth : Nat) :
    SameBelow size bound (feed.complete rounds maxDepth) (feed.complete rounds' maxDepth) := by
  have factors := lessens.sameBelow_factor lawful le le' maxDepth
  have reads := reads_factor lawful rounds maxDepth
  intro first below
  exact Action.bind_congr (lessens.sameBelow_expression lawful reads factors le le' first below)
    fun _ _ _ => rfl

/-- A whole descent does the same with all numbers of rounds above the size of the state behind
its first step. -/
theorem whole_eq (lessens : feed.Lessens size) (lawful : feed.Lawful) {start : σ}
    (enough : ∀ first, feed.advance start = .ok () first → size first < rounds)
    (enough' : ∀ first, feed.advance start = .ok () first → size first < rounds')
    (maxDepth : Nat) :
    Descent.whole feed rounds maxDepth start = Descent.whole feed rounds' maxDepth start := by
  cases moved : feed.advance start with
  | error fault after =>
    rw [Descent.whole, Descent.whole, Action.bind_of_error moved, Action.bind_of_error moved]
  | ok _ first =>
    have below : size first < min rounds rounds' :=
      Nat.lt_min.mpr ⟨enough first moved, enough' first moved⟩
    rw [whole_of_advance moved, whole_of_advance moved,
      lessens.sameBelow_complete lawful (Nat.min_le_left _ _) (Nat.min_le_right _ _) maxDepth first
        below]

end Lessens

end Feed

end TapeCalc
