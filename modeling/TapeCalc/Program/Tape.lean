import TapeCalc.BoundedStack
import TapeCalc.Opcode

/-!
# The tape

Instructions are planted at the end of a tape of bounded length.  The instruction that
loads a constant takes two words, and both steps can fail.
-/

namespace TapeCalc

/-- The words of a program, oldest first as a list. -/
abbrev Tape := BoundedStack Word

namespace Tape

/-- An empty tape for a number of words. -/
def empty (maxCodeLen : Nat) : Tape := BoundedStack.empty maxCodeLen .expressionTooLong

/-- A tape that holds exactly the given words. -/
def ofList (words : List Word) : Tape := BoundedStack.ofList words .expressionTooLong

/-- Plant an instruction. -/
def plant (opcode : Opcode) : Action Tape Unit := BoundedStack.push opcode.word

/-- Plant the instruction that loads a constant, and the index of the constant.  An index
that is no word is refused after the instruction has been planted. -/
def plantConstant (index : Nat) : Action Tape Unit := do
  plant .loadConst
  if index < UInt16.size then BoundedStack.push (UInt16.ofNat index)
  else throw (.plain .tooManyConstants)

end Tape

end TapeCalc
