import TapeCalc.Fault

/-!
# The instruction set

Every instruction works on the stack.  Only {lit}`loadConst` has an operand, the
next word of the tape, which is an index into the constant pool.

Main definitions:

- {lit}`Opcode`: the instructions, with the arithmetic ones grouped by arity.
- {lit}`Opcode.word` and {lit}`Opcode.ofWord?`: how instructions stand on a tape.

Main results:

- Theorem {lit}`Opcode.ofWord?_word`: a planted instruction is read back.
- Theorem {lit}`Opcode.word_of_ofWord?`: no other word is read as an instruction.
-/

namespace TapeCalc

/-- One slot of a tape: an instruction or the operand that follows one. -/
abbrev Word := UInt16

/-- Operations that take two values off the stack and leave one. -/
inductive BinaryOp where
  | add
  | sub
  | mul
  | div
  | pow
deriving DecidableEq, Inhabited

/-- Operations that replace the value on top of the stack. -/
inductive UnaryOp where
  | neg
  | exp
  | log
  | log10
  | sqr
  | sqrt
  | sin
  | cos
  | tan
  | atn
  | abs
  | int
deriving DecidableEq, Inhabited

/-- The two variables an expression may read. -/
inductive Slot where
  | x
  | y
deriving DecidableEq, Inhabited

/-- The instructions of the machine. -/
inductive Opcode where
  | nop
  | binary (op : BinaryOp)
  | load (slot : Slot)
  | unary (op : UnaryOp)
  | pi
  | loadConst
deriving DecidableEq, Inhabited

/-! ## Names -/

namespace BinaryOp

/-- The mnemonic of a binary operation. -/
def name : BinaryOp → String
  | add => "ADD"
  | sub => "SUB"
  | mul => "MUL"
  | div => "DIV"
  | pow => "POW"

end BinaryOp

namespace UnaryOp

/-- The mnemonic of a unary operation. -/
def name : UnaryOp → String
  | neg => "NEG"
  | exp => "EXP"
  | log => "LOG"
  | log10 => "LOG10"
  | sqr => "SQR"
  | sqrt => "SQRT"
  | sin => "SIN"
  | cos => "COS"
  | tan => "TAN"
  | atn => "ATN"
  | abs => "ABS"
  | int => "INT"

end UnaryOp

namespace Slot

/-- The mnemonic of the instruction that pushes a variable. -/
def name : Slot → String
  | x => "VARX"
  | y => "VARY"

/-- Both variables, in the order in which they are given out. -/
def all : List Slot := [x, y]

end Slot

namespace Opcode

/-- The mnemonic of an instruction. -/
def name : Opcode → String
  | nop => "NOP"
  | binary op => op.name
  | load slot => slot.name
  | unary op => op.name
  | pi => "PI"
  | loadConst => "LOADCONST"

/-- Whether the next word on the tape belongs to the instruction. -/
def hasOperand (opcode : Opcode) : Bool := opcode = loadConst

/-- The unary operation an instruction stands for, if it is one. -/
def unary? : Opcode → Option UnaryOp
  | unary op => some op
  | _ => none

/-! ## Words -/

/-- The word an instruction is planted as. -/
def word : Opcode → Word
  | nop => 0
  | binary .add => 1
  | binary .sub => 2
  | binary .mul => 3
  | binary .div => 4
  | binary .pow => 5
  | load .x => 6
  | load .y => 7
  | unary .neg => 8
  | unary .exp => 9
  | unary .log => 10
  | unary .log10 => 11
  | unary .sqr => 12
  | unary .sqrt => 13
  | unary .sin => 14
  | unary .cos => 15
  | unary .tan => 16
  | unary .atn => 17
  | unary .abs => 18
  | unary .int => 19
  | pi => 20
  | loadConst => 21

/-- The instruction a word stands for, if any. -/
def ofWord? (word : Word) : Option Opcode :=
  match word.toNat with
  | 0 => some nop
  | 1 => some (binary .add)
  | 2 => some (binary .sub)
  | 3 => some (binary .mul)
  | 4 => some (binary .div)
  | 5 => some (binary .pow)
  | 6 => some (load .x)
  | 7 => some (load .y)
  | 8 => some (unary .neg)
  | 9 => some (unary .exp)
  | 10 => some (unary .log)
  | 11 => some (unary .log10)
  | 12 => some (unary .sqr)
  | 13 => some (unary .sqrt)
  | 14 => some (unary .sin)
  | 15 => some (unary .cos)
  | 16 => some (unary .tan)
  | 17 => some (unary .atn)
  | 18 => some (unary .abs)
  | 19 => some (unary .int)
  | 20 => some pi
  | 21 => some loadConst
  | _ => none

/-- What is reported of a word that stands for no instruction. -/
def undefined : Fault := .broken "UNDEFINED OPCODE"

/-- Reads a word as an instruction, or reports that it stands for none. -/
def decode (word : Word) : Except Fault Opcode :=
  match ofWord? word with
  | some opcode => .ok opcode
  | none => .error undefined

/-- A planted instruction is read back. -/
@[simp] theorem ofWord?_word (opcode : Opcode) : ofWord? opcode.word = some opcode := by
  rcases opcode with _ | op | slot | op | _ | _
  · rfl
  · cases op <;> rfl
  · cases slot <;> rfl
  · cases op <;> rfl
  · rfl
  · rfl

/-- A word read as an instruction is the word that instruction is planted as. -/
theorem word_of_ofWord? {w : Word} {opcode : Opcode} (h : ofWord? w = some opcode) :
    opcode.word = w := by
  unfold ofWord? at h
  split at h <;> cases h <;> exact UInt16.toNat_inj.mp (by simp_all [word])

end Opcode

end TapeCalc
