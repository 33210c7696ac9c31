import TapeCalc.Program.Pool
import TapeCalc.Program.Tape
import TapeCalc.Limits

/-!
# Programs

A program is a tape and the pool it indexes into.  It is built step by step under the
limits of a compilation, or put together from parts that nothing has checked.
-/

namespace TapeCalc

/-- A tape and the pool its operands index. -/
structure Program where
  tape : Tape
  pool : Pool

namespace Program

/-- The empty program, with the room the limits leave it. -/
def empty (limits : Limits) : Program :=
  ⟨Tape.empty limits.maxCodeLen, Pool.empty limits.maxConstants⟩

/-- A program made of parts.  Nothing is checked before it is run. -/
def ofParts (words : List Word) (values : List Float) : Program :=
  ⟨Tape.ofList words, Pool.ofList values⟩

/-- The words on the tape. -/
def words (program : Program) : List Word := program.tape.toList

/-- The values in the pool. -/
def constants (program : Program) : List Float := program.pool.toList

/-- Run a step on the tape. -/
def onTape {α : Type} (step : Action Tape α) : Action Program α :=
  Action.onPart tape (fun program tape => { program with tape }) step

/-- Run a step on the pool. -/
def onPool {α : Type} (step : Action Pool α) : Action Program α :=
  Action.onPart pool (fun program pool => { program with pool }) step

/-- Plant an instruction at the end of the tape. -/
def plant (opcode : Opcode) : Action Program Unit := onTape (Tape.plant opcode)

/-- Plant the instruction that loads the constant at an index. -/
def plantConstant (index : Nat) : Action Program Unit := onTape (Tape.plantConstant index)

/-- The index of a value in the pool, which takes it in if need be. -/
def storeConstant (value : Float) : Action Program Nat := onPool (Pool.store value)

end Program

end TapeCalc
