import TapeCalc.Arithmetic
import TapeCalc.Program.Basic

/-!
# The stack machine

The machine runs a tape word by word.  It trusts nothing: words without meaning,
operands that are missing or out of range, and stacks that are too short or too high
in the end are all reported.

Main definitions:

- {lit}`Machine.perform`: one instruction without operand.
- {lit}`Machine.run`: the rest of a tape, with every instruction that was started.
- {lit}`Program.evaluate`: the value of a program.
-/

namespace TapeCalc

/-- An instruction that is about to run, and the stack it finds, newest value first. -/
structure Step where
  position : Nat
  opcode : Opcode
  stack : List Float

/-- The instructions that were started, and the value or fault they led to. -/
structure Run where
  steps : List Step
  outcome : Except Fault Float

/-- A run with an instruction in front of it. -/
def Run.after (step : Step) (run : Run) : Run := { run with steps := step :: run.steps }

/-- What an expression is evaluated with: the values of the variables and the pool. -/
structure Environment where
  x : Float
  y : Float
  constants : List Float

/-- The value of a variable. -/
def Environment.value (environment : Environment) : Slot → Float
  | .x => environment.x
  | .y => environment.y

/-- The stack of a running program. -/
abbrev ValueStack := BoundedStack Float

namespace Machine

/-- The stack a tape is run on.  It has a place for each word, so no push can fail. -/
def emptyStack (words : List Word) : ValueStack := BoundedStack.empty words.length .internalError

/-- Take two operands off the stack and put the result in their place. -/
def binary (op : BinaryOp) : Action ValueStack Unit := do
  let (lhs, rhs) ← BoundedStack.popTwo
  BoundedStack.push (← Action.ofExcept (op.apply lhs rhs))

/-- Run an instruction that has no operand. -/
def perform (environment : Environment) : Opcode → Action ValueStack Unit
  | .nop => throw (.broken "NOP ON TAPE")
  | .binary op => binary op
  | .load slot => BoundedStack.push (environment.value slot)
  | .unary op => BoundedStack.replaceTop op.apply
  | .pi => BoundedStack.push circleConstant
  | .loadConst => throw Opcode.undefined

/-- The value at the end of a tape: the only one on the stack. -/
def result (stack : ValueStack) : Except Fault Float :=
  match BoundedStack.pop stack with
  | .error fault _ => .error fault
  | .ok value left => if left.isEmpty then .ok value else .error (.broken "UNBALANCED TAPE")

/-- Run the rest of a tape from a position on. -/
def run (environment : Environment) (position : Nat) (stack : ValueStack) : List Word → Run
  | [] => ⟨[], result stack⟩
  | word :: rest =>
    match Opcode.ofWord? word with
    | none => ⟨[], .error Opcode.undefined⟩
    | some .loadConst =>
      Run.after ⟨position, .loadConst, stack.entries⟩ <|
        match rest with
        | [] => ⟨[], .error (.broken "MISSING OPERAND")⟩
        | index :: rest =>
          match environment.constants[index.toNat]? with
          | none => ⟨[], .error (.broken "CONSTANT OUT OF RANGE")⟩
          | some value =>
            match BoundedStack.push value stack with
            | .error fault _ => ⟨[], .error fault⟩
            | .ok () stack => run environment (position + 2) stack rest
    | some opcode =>
      Run.after ⟨position, opcode, stack.entries⟩ <|
        match perform environment opcode stack with
        | .error fault _ => ⟨[], .error fault⟩
        | .ok () stack => run environment (position + 1) stack rest

end Machine

namespace Program

/-- Run a program with values for the variables. -/
def run (program : Program) (x y : Float) : Run :=
  Machine.run ⟨x, y, program.constants⟩ 0 (Machine.emptyStack program.words) program.words

/-- The value of a program, or the fault that cut its evaluation short. -/
def evaluate (program : Program) (x y : Float) : Except Fault Float :=
  (program.run x y).outcome

end Program

end TapeCalc
