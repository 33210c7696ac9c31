import TapeCalc.Opcode

/-!
# Arithmetic on doubles

The operations the instructions stand for, with the domains the calculator
insists on: no division by zero, no logarithm of a non-positive value, no square
root of a negative one, and no power that would be a complex number.
-/

namespace TapeCalc

/-- The double nearest to the ratio of a circle to its diameter. -/
def circleConstant : Float := Float.ofBits 0x400921FB54442D18

namespace BinaryOp

/-- Apply an operation to its left and right operand.  A negative base only takes
whole exponents, and any zero is refused as a divisor. -/
def apply (op : BinaryOp) (lhs rhs : Float) : Except Fault Float :=
  match op with
  | add => .ok (lhs + rhs)
  | sub => .ok (lhs - rhs)
  | mul => .ok (lhs * rhs)
  | div => if rhs == 0.0 then .error (.plain .divisionByZero) else .ok (lhs / rhs)
  | pow =>
    if lhs < 0.0 && rhs != rhs.floor then .error (.plain .complexPower)
    else .ok (lhs.pow rhs)

end BinaryOp

namespace UnaryOp

/-- Apply an operation to its operand.  {lit}`int` rounds toward negative infinity and
{lit}`sqr` is the square. -/
def apply (op : UnaryOp) (n : Float) : Except Fault Float :=
  match op with
  | neg => .ok (-n)
  | exp => .ok n.exp
  | log => if n <= 0.0 then .error (.plain .logOfNonPositive) else .ok n.log
  | log10 => if n <= 0.0 then .error (.plain .logOfNonPositive) else .ok n.log10
  | sqr => .ok (n * n)
  | sqrt => if n < 0.0 then .error (.plain .sqrtOfNegative) else .ok n.sqrt
  | sin => .ok n.sin
  | cos => .ok n.cos
  | tan => .ok n.tan
  | atn => .ok n.atan
  | abs => .ok n.abs
  | int => .ok n.floor

end UnaryOp

end TapeCalc
