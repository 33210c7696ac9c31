import TapeCalc.Machine.Shape
import TapeCalc.Proofs.Program.Stack

/-!
# Single instructions

What one instruction does to the stack, and what can stop it.  An instruction
without operand either finds too few values, which its height alone decides, or
it meets numbers its operation is not defined on.  With a free place on the stack
nothing else can happen.

Main results:

- Theorem {lit}`Machine.perform_of_heightAfter_error`: what the height forbids
  fails with the fault the height predicts.
- Theorem {lit}`Machine.perform_of_heightAfter_ok`: what the height allows is
  only stopped by the numbers, and leaves the predicted height.
-/

namespace TapeCalc

/-! ## Faults of the arithmetic -/

/-- A binary operation is only refused because of the numbers. -/
theorem BinaryOp.kind_of_apply_error {op : BinaryOp} {lhs rhs : Float} {fault : Fault}
    (h : op.apply lhs rhs = .error fault) : fault.kind = .evaluation := by
  cases op with
  | add => cases h
  | sub => cases h
  | mul => cases h
  | div =>
    simp only [BinaryOp.apply] at h
    split at h
    · cases h
      rfl
    · cases h
  | pow =>
    simp only [BinaryOp.apply] at h
    split at h
    · cases h
      rfl
    · cases h

/-- A unary operation is only refused because of the number. -/
theorem UnaryOp.kind_of_apply_error {op : UnaryOp} {n : Float} {fault : Fault}
    (h : op.apply n = .error fault) : fault.kind = .evaluation := by
  cases op <;> simp only [UnaryOp.apply] at h
  case log | log10 | sqrt =>
    split at h
    · cases h
      rfl
    · cases h
  all_goals cases h

/-! ## Instructions without operand -/

/-- The fault the operation of an instruction raises on the values it finds. -/
def Step.numericFault? (step : Step) : Option Fault :=
  match step.opcode, step.stack with
  | .binary op, rhs :: lhs :: _ =>
    match op.apply lhs rhs with
    | .error fault => some fault
    | .ok _ => none
  | .unary op, value :: _ =>
    match op.apply value with
    | .error fault => some fault
    | .ok _ => none
  | _, _ => none

/-- A fault raised by an operation is the fault of an evaluation. -/
theorem Step.kind_of_numericFault? {step : Step} {fault : Fault}
    (h : step.numericFault? = some fault) : fault.kind = .evaluation := by
  unfold Step.numericFault? at h
  split at h
  · split at h
    · cases h
      exact BinaryOp.kind_of_apply_error ‹_›
    · cases h
  · split at h
    · cases h
      exact UnaryOp.kind_of_apply_error ‹_›
    · cases h
  · cases h

namespace Machine

variable {environment : Environment} {stack : ValueStack}

/-- A binary instruction on two values: they make place for the result. -/
theorem binary_of_two {op : BinaryOp} {lhs rhs : Float} {entries : List Float}
    {room : Nat} {overflow : FaultCode} :
    binary op ⟨rhs :: lhs :: entries, room, overflow⟩ =
      match op.apply lhs rhs with
      | .error fault => .error fault ⟨entries, room + 2, overflow⟩
      | .ok value => .ok () ⟨value :: entries, room + 1, overflow⟩ := by
  have popped : BoundedStack.popTwo ⟨rhs :: lhs :: entries, room, overflow⟩ =
      .ok (lhs, rhs) ⟨entries, room + 2, overflow⟩ := rfl
  simp only [binary, bind, EStateM.bind, popped]
  cases op.apply lhs rhs with
  | error fault => rfl
  | ok value => rfl

/-- What the height of the stack forbids fails with the fault the height predicts. -/
theorem perform_of_heightAfter_error (environment : Environment) {opcode : Opcode} {fault : Fault}
    (h : Shape.heightAfter stack.size opcode = .error fault) :
    ∃ after, perform environment opcode stack = .error fault after := by
  rcases stack with ⟨entries, room, overflow⟩
  cases opcode with
  | nop =>
    cases h
    exact ⟨_, rfl⟩
  | binary op =>
    rcases entries with _ | ⟨rhs, _ | ⟨lhs, rest⟩⟩
    · cases h
      exact ⟨_, rfl⟩
    · cases h
      exact ⟨_, rfl⟩
    · rw [Shape.heightAfter, if_neg (by simp [BoundedStack.size])] at h
      cases h
  | load slot => cases h
  | unary op =>
    cases entries with
    | nil =>
      cases h
      exact ⟨_, rfl⟩
    | cons value rest => simp [Shape.heightAfter, BoundedStack.size] at h
  | pi => cases h
  | loadConst =>
    cases h
    exact ⟨_, rfl⟩

/-- What the height of the stack allows is only stopped by the numbers, and leaves a stack of
the predicted height with the same number of places. -/
theorem perform_of_heightAfter_ok (environment : Environment) (position : Nat)
    {opcode : Opcode} {height : Nat} (room : stack.room ≠ 0)
    (h : Shape.heightAfter stack.size opcode = .ok height) :
    (∃ after, perform environment opcode stack = .ok () after ∧ after.size = height ∧
        after.capacity = stack.capacity) ∨
      ∃ fault after, perform environment opcode stack = .error fault after ∧
        Step.numericFault? ⟨position, opcode, stack.entries⟩ = some fault := by
  have pushes (value : Float) : ∃ after, BoundedStack.push value stack = .ok () after ∧
      after.size = stack.size + 1 ∧ after.capacity = stack.capacity := by
    refine ⟨stack.pushed value, BoundedStack.push_eq_pushed value room, rfl, ?_⟩
    simp only [BoundedStack.capacity, BoundedStack.size_pushed, BoundedStack.room_pushed]
    omega
  cases opcode with
  | nop => cases h
  | binary op =>
    rcases stack with ⟨entries, places, overflow⟩
    rcases entries with _ | ⟨rhs, _ | ⟨lhs, rest⟩⟩
    · simp [Shape.heightAfter, BoundedStack.size] at h
    · simp [Shape.heightAfter, BoundedStack.size] at h
    · rw [Shape.heightAfter, if_neg (by simp [BoundedStack.size])] at h
      have same : rest.length + 1 = height := by simpa [BoundedStack.size] using h
      rw [perform, binary_of_two]
      cases applied : op.apply lhs rhs with
      | error fault =>
        exact Or.inr ⟨fault, _, rfl, by simp [Step.numericFault?, applied]⟩
      | ok value =>
        refine Or.inl ⟨_, rfl, same, ?_⟩
        simp only [BoundedStack.capacity, BoundedStack.size, List.length_cons]
        omega
  | load slot =>
    cases h
    exact Or.inl (pushes _)
  | unary op =>
    rcases stack with ⟨entries, places, overflow⟩
    cases entries with
    | nil => simp [Shape.heightAfter, BoundedStack.size] at h
    | cons value rest =>
      have same : rest.length + 1 = height := by
        simpa [Shape.heightAfter, BoundedStack.size] using h
      simp only [perform, BoundedStack.replaceTop]
      cases applied : op.apply value with
      | error fault =>
        exact Or.inr ⟨fault, _, rfl, by simp [Step.numericFault?, applied]⟩
      | ok changed => exact Or.inl ⟨_, rfl, same, rfl⟩
  | pi =>
    cases h
    exact Or.inl (pushes _)
  | loadConst => cases h

/-- An instruction leaves at most one value more than it has found. -/
theorem le_succ_of_heightAfter_ok {opcode : Opcode} {before after : Nat}
    (h : Shape.heightAfter before opcode = .ok after) : after ≤ before + 1 := by
  cases opcode with
  | nop => cases h
  | binary op =>
    simp only [Shape.heightAfter] at h
    split at h
    · cases h
    · cases h
      omega
  | load slot => cases h; exact Nat.le_refl _
  | unary op =>
    simp only [Shape.heightAfter] at h
    split at h
    · cases h
    · cases h
      exact Nat.le_succ _
  | pi => cases h; exact Nat.le_refl _
  | loadConst => cases h

/-- An instruction that has been performed takes up at most one place. -/
theorem size_le_of_perform_ok {opcode : Opcode} {after : ValueStack} (room : stack.room ≠ 0)
    (h : perform environment opcode stack = .ok () after) :
    after.size ≤ stack.size + 1 ∧ after.capacity = stack.capacity := by
  cases predicted : Shape.heightAfter stack.size opcode with
  | error fault =>
    obtain ⟨reached, failed⟩ := perform_of_heightAfter_error environment predicted
    rw [failed] at h
    cases h
  | ok height =>
    rcases perform_of_heightAfter_ok environment 0 room predicted with
      ⟨reached, performed, size, capacity⟩ | ⟨fault, reached, failed, _⟩
    · rw [performed] at h
      cases h
      exact ⟨size ▸ le_succ_of_heightAfter_ok predicted, capacity⟩
    · rw [failed] at h
      cases h

end Machine

end TapeCalc
