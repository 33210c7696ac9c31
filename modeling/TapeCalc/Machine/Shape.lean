import TapeCalc.Machine.Basic

/-!
# The shape of a tape

Whether a tape can be run at all does not depend on the values it computes.  A walk over
the words that only counts how many values are on the stack finds the first instruction
that cannot be run, or a wrong number of values in the end.

Main definitions:

- {lit}`Shape.walk`: where and why a tape cannot be run.
-/

namespace TapeCalc

/-- A place on a tape and the fault that is found there. -/
structure ShapeFault where
  position : Nat
  fault : Fault
deriving DecidableEq

namespace Shape

/-- How many values an instruction without operand needs on the stack, and how many are
there afterwards; the fault if it cannot be run at all. -/
def heightAfter (height : Nat) : Opcode → Except Fault Nat
  | .nop => .error (.broken "NOP ON TAPE")
  | .binary _ => if height < 2 then .error BoundedStack.underflow else .ok (height - 1)
  | .load _ => .ok (height + 1)
  | .unary _ => if height = 0 then .error BoundedStack.underflow else .ok height
  | .pi => .ok (height + 1)
  | .loadConst => .error Opcode.undefined

/-- Walk over the words from a position on, with a number of values on the stack, and
find the first place at which a run has to stop. -/
def walk (poolSize position height : Nat) : List Word → Option ShapeFault
  | [] =>
    if height = 0 then some ⟨position, BoundedStack.underflow⟩
    else if 1 < height then some ⟨position, .broken "UNBALANCED TAPE"⟩
    else none
  | word :: rest =>
    match Opcode.ofWord? word with
    | none => some ⟨position, Opcode.undefined⟩
    | some .loadConst =>
      match rest with
      | [] => some ⟨position, .broken "MISSING OPERAND"⟩
      | index :: rest =>
        if index.toNat < poolSize then walk poolSize (position + 2) (height + 1) rest
        else some ⟨position, .broken "CONSTANT OUT OF RANGE"⟩
    | some opcode =>
      match heightAfter height opcode with
      | .error fault => some ⟨position, fault⟩
      | .ok height => walk poolSize (position + 1) height rest

/-- The first place at which running a program has to stop. -/
def fault? (program : Program) : Option ShapeFault :=
  walk program.constants.length 0 0 program.words

end Shape

end TapeCalc
