import TapeCalc.Opcode

/-!
# Classified lexemes

A token says what a lexeme of the text is for.  Operators, variables and functions
stand for the instruction that will be planted for them, and a literal for the index
of its value in the constant pool.
-/

namespace TapeCalc

/-- The operators that add, which also stand in front of an operand as signs. -/
inductive Sign where
  | plus
  | minus
deriving DecidableEq, Inhabited

/-- The operators that multiply. -/
inductive Scale where
  | times
  | divide
deriving DecidableEq, Inhabited

/-- The operation a sign stands for between two operands. -/
def Sign.binary : Sign → BinaryOp
  | plus => .add
  | minus => .sub

/-- The operation a scaling operator stands for. -/
def Scale.binary : Scale → BinaryOp
  | times => .mul
  | divide => .div

/-- A classified lexeme. -/
inductive Token where
  | additive (sign : Sign)
  | multiplicative (scale : Scale)
  | power
  | leftParen
  | rightParen
  | load (slot : Slot)
  | pi
  | function (op : UnaryOp)
  | constant (index : Nat)
deriving DecidableEq, Inhabited

namespace Token

/-- The operation of an operator of the lowest rank. -/
def additive? : Token → Option BinaryOp
  | additive sign => some sign.binary
  | _ => none

/-- The operation of an operator of the middle rank. -/
def multiplicative? : Token → Option BinaryOp
  | multiplicative scale => some scale.binary
  | _ => none

/-- The operation of an operator of the highest rank. -/
def power? : Token → Option BinaryOp
  | power => some .pow
  | _ => none

/-- The token as it is shown in a log: its symbol, its instruction or its index. -/
def display : Token → String
  | additive .plus => "+"
  | additive .minus => "-"
  | multiplicative .times => "*"
  | multiplicative .divide => "/"
  | power => "^"
  | leftParen => "("
  | rightParen => ")"
  | load slot => slot.name
  | pi => Opcode.pi.name
  | function op => op.name
  | constant index => "#" ++ toString index

/-- The token with the name of its class. -/
def classified : Token → String
  | additive sign => "PlusMinus(" ++ sign.binary.name ++ ")"
  | multiplicative scale => "TimesDivide(" ++ scale.binary.name ++ ")"
  | power => "Power(" ++ BinaryOp.pow.name ++ ")"
  | leftParen => "LParen"
  | rightParen => "RParen"
  | load slot => "Variable(" ++ slot.name ++ ")"
  | pi => "Variable(" ++ Opcode.pi.name ++ ")"
  | function op => "Function(" ++ op.name ++ ")"
  | constant index => "Constant(" ++ toString index ++ ")"

end Token

/-- A token with the range of the text it was read from. -/
structure Lexeme where
  token : Token
  column : Span
deriving DecidableEq, Inhabited

end TapeCalc
