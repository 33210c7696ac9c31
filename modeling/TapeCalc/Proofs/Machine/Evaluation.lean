import TapeCalc.Expr.Basic
import TapeCalc.Proofs.Machine.Shape

/-!
# Running post-order code

The code of an expression, run in front of any other words and on top of any values,
comes to what the expression evaluates to: its value is pushed and the other words go
on, or its first fault ends the run.

Main results:

- Theorem {lit}`Machine.outcome_run_code`: the code of an expression in any place.
- Theorem {lit}`Program.evaluate_eq_of_code`: a program that is the code of an
  expression evaluates to the value of the expression.
-/

namespace TapeCalc

/-- A direct evaluation only fails because of the numbers. -/
theorem Expr.kind_of_evaluate_error {valuation : Valuation} {expr : Expr} {fault : Fault}
    (h : expr.evaluate valuation = .error fault) : fault.kind = .evaluation := by
  induction expr with
  | literal _ => cases h
  | load _ => cases h
  | pi => cases h
  | group _ ih => exact ih h
  | signed sign operand ih =>
    rw [evaluate] at h
    cases evaluated : operand.evaluate valuation with
    | error other =>
      rw [evaluated] at h
      cases h
      exact ih evaluated
    | ok value =>
      rw [evaluated] at h
      cases sign with
      | plus => cases h
      | minus => exact UnaryOp.kind_of_apply_error h
  | call op argument ih =>
    rw [evaluate] at h
    cases evaluated : argument.evaluate valuation with
    | error other =>
      rw [evaluated] at h
      cases h
      exact ih evaluated
    | ok value =>
      rw [evaluated] at h
      exact UnaryOp.kind_of_apply_error h
  | binary op left right ihLeft ihRight =>
    rw [evaluate] at h
    cases evaluatedLeft : left.evaluate valuation with
    | error other =>
      rw [evaluatedLeft] at h
      cases h
      exact ihLeft evaluatedLeft
    | ok lhs =>
      rw [evaluatedLeft] at h
      cases evaluatedRight : right.evaluate valuation with
      | error other =>
        simp only [evaluatedRight] at h
        cases h
        exact ihRight evaluatedRight
      | ok rhs =>
        simp only [evaluatedRight] at h
        exact BinaryOp.kind_of_apply_error h

/-- Every expression has an instruction. -/
theorem Expr.codeLength_pos (expr : Expr) : 0 < expr.codeLength := by
  induction expr with
  | literal _ => exact Nat.succ_pos _
  | load _ => exact Nat.succ_pos _
  | pi => exact Nat.succ_pos _
  | group _ ih => exact ih
  | signed sign _ ih =>
    cases sign with
    | plus => exact ih
    | minus => exact Nat.succ_pos _
  | call _ _ _ => exact Nat.succ_pos _
  | binary _ _ _ _ _ => exact Nat.succ_pos _

/-- A valuation gives an expression what the machine will find: the variables have their
values, and each literal has the value at its index, which fits into a word. -/
structure Valuation.Matches (valuation : Valuation) (environment : Environment)
    (expr : Expr) : Prop where
  slot : ∀ slot, valuation.slot slot = environment.value slot
  fits : ∀ index ∈ expr.literals, index < UInt16.size
  literal : ∀ index ∈ expr.literals,
    environment.constants[index]? = some (valuation.literal index)

/-- What a valuation matches for an expression it matches for a part of it. -/
theorem Valuation.Matches.mono {valuation : Valuation} {environment : Environment}
    {whole part : Expr} (h : valuation.Matches environment whole)
    (literals : ∀ index ∈ part.literals, index ∈ whole.literals) :
    valuation.Matches environment part :=
  ⟨h.slot, fun index member => h.fits index (literals index member),
    fun index member => h.literal index (literals index member)⟩

namespace Machine

variable {environment : Environment} {valuation : Valuation}

/-- A run goes on with the value of an expression, or ends with its fault. -/
def continueWith (environment : Environment) (position : Nat) (stack : ValueStack)
    (rest : List Word) : Except Fault Float → Except Fault Float
  | .error fault => .error fault
  | .ok value => (run environment position (stack.pushed value) rest).outcome

/-- An instruction that pushes a value goes on with it. -/
theorem outcome_run_push {position : Nat} {stack : ValueStack} {rest : List Word}
    {opcode : Opcode} (value : Float) (plain : opcode ≠ .loadConst) (room : stack.room ≠ 0)
    (pushes : perform environment opcode stack = BoundedStack.push value stack) :
    (run environment position stack (opcode.word :: rest)).outcome =
      continueWith environment (position + 1) stack rest (.ok value) := by
  rw [run_plain (Opcode.ofWord?_word opcode) plain, pushes, BoundedStack.push_eq_pushed value room]
  rfl

/-- A unary instruction goes on with what its operation makes of the value on top. -/
theorem outcome_run_unary {position : Nat} {stack : ValueStack} {rest : List Word}
    {op : UnaryOp} {value : Float} :
    (run environment position (stack.pushed value) ((Opcode.unary op).word :: rest)).outcome =
      continueWith environment (position + 1) stack rest (op.apply value) := by
  rw [run_plain (Opcode.ofWord?_word _) (by simp), perform]
  simp only [BoundedStack.replaceTop, BoundedStack.entries_pushed]
  cases op.apply value with
  | error fault => rfl
  | ok changed => rfl

/-- A binary instruction goes on with what its operation makes of the two values on top. -/
theorem outcome_run_binary {position : Nat} {stack : ValueStack} {rest : List Word}
    {op : BinaryOp} {lhs rhs : Float} (room : 2 ≤ stack.room) :
    (run environment position ((stack.pushed lhs).pushed rhs)
        ((Opcode.binary op).word :: rest)).outcome =
      continueWith environment (position + 1) stack rest (op.apply lhs rhs) := by
  rw [run_plain (Opcode.ofWord?_word _) (by simp), perform, BoundedStack.pushed,
    BoundedStack.pushed, binary_of_two]
  cases op.apply lhs rhs with
  | error fault => rfl
  | ok value =>
    have places : stack.room - 1 - 1 + 1 = stack.room - 1 := by omega
    simp only [Run.after, resume, continueWith, BoundedStack.pushed, places]

/-- The code of an expression, in front of any words and on top of any values, comes to what
the expression evaluates to. -/
theorem outcome_run_code (expr : Expr) (known : valuation.Matches environment expr)
    (position : Nat) (stack : ValueStack) (rest : List Word)
    (room : expr.codeLength ≤ stack.room) :
    (run environment position stack (expr.code ++ rest)).outcome =
      continueWith environment (position + expr.codeLength) stack rest
        (expr.evaluate valuation) := by
  have place : stack.room ≠ 0 := by
    have := expr.codeLength_pos
    omega
  -- What stands behind the code and below its value differs from operand to operand.
  induction expr generalizing position stack rest with
  | literal index =>
    have fits : (UInt16.ofNat index).toNat = index :=
      UInt16.toNat_ofNat_of_lt' (known.fits index (by simp [Expr.literals]))
    have stored : environment.constants[(UInt16.ofNat index).toNat]? =
        some (valuation.literal index) := by
      rw [fits]
      exact known.literal index (by simp [Expr.literals])
    rw [Expr.code, List.cons_append, List.cons_append, List.nil_append,
      run_loadConst (Opcode.ofWord?_word _) stored place]
    rfl
  | load slot =>
    rw [Expr.code, List.singleton_append,
      outcome_run_push (environment.value slot) (by simp) place rfl, ← known.slot slot]
    rfl
  | pi =>
    rw [Expr.code, List.singleton_append,
      outcome_run_push circleConstant (by simp) place rfl]
    rfl
  | group inner ih => exact ih (known.mono fun _ member => member) position stack rest room place
  | signed sign operand ih =>
    have part : valuation.Matches environment operand := known.mono fun _ member => member
    cases sign with
    | plus =>
      rw [Expr.code, ih part position stack rest room place, Expr.evaluate]
      cases operand.evaluate valuation <;> rfl
    | minus =>
      simp only [Expr.codeLength] at room
      rw [Expr.code, List.append_assoc, List.singleton_append,
        ih part position stack _ (by omega) place, Expr.evaluate]
      cases operand.evaluate valuation with
      | error fault => rfl
      | ok value => exact outcome_run_unary
  | call op argument ih =>
    have part : valuation.Matches environment argument := known.mono fun _ member => member
    simp only [Expr.codeLength] at room
    rw [Expr.code, List.append_assoc, List.singleton_append,
      ih part position stack _ (by omega) place, Expr.evaluate]
    cases argument.evaluate valuation with
    | error fault => rfl
    | ok value => exact outcome_run_unary
  | binary op left right ihLeft ihRight =>
    have partLeft : valuation.Matches environment left :=
      known.mono fun _ member => by simp [Expr.literals, member]
    have partRight : valuation.Matches environment right :=
      known.mono fun _ member => by simp [Expr.literals, member]
    have positiveLeft := left.codeLength_pos
    have positiveRight := right.codeLength_pos
    simp only [Expr.codeLength] at room ⊢
    rw [Expr.code, List.append_assoc, List.append_assoc, List.singleton_append,
      ihLeft partLeft position stack _ (by omega) place, Expr.evaluate]
    cases left.evaluate valuation with
    | error fault => rfl
    | ok lhs =>
      simp only [continueWith]
      rw [ihRight partRight _ (stack.pushed lhs) _ (by simp only [BoundedStack.room_pushed]; omega)
        (by simp only [BoundedStack.room_pushed]; omega)]
      cases right.evaluate valuation with
      | error fault => rfl
      | ok rhs =>
        simp only [continueWith]
        rw [outcome_run_binary (by omega)]
        simp only [continueWith, Nat.add_assoc]

end Machine

/-- A program that is the code of an expression evaluates to the value of the expression, fault
for fault. -/
theorem Program.evaluate_eq_of_code {program : Program} {expr : Expr} {valuation : Valuation}
    (x y : Float) (code : program.words = expr.code)
    (known : valuation.Matches ⟨x, y, program.constants⟩ expr) :
    program.evaluate x y = expr.evaluate valuation := by
  have room : expr.codeLength ≤ (Machine.emptyStack expr.code).room := by
    rw [← expr.length_code]
    exact Program.room_emptyStack _
  have ran := Machine.outcome_run_code expr known 0 (Machine.emptyStack expr.code) [] room
  rw [List.append_nil] at ran
  rw [Program.evaluate, Program.run, code, ran]
  cases expr.evaluate valuation with
  | error fault => rfl
  | ok value => rfl

end TapeCalc
