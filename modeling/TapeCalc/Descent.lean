import TapeCalc.Program.Tape
import TapeCalc.Token

/-!
# Recursive descent

An expression is read by recursive descent, and its instructions are planted in
post-order as soon as their operands are.

Binary operators have three ranks, each left-associative: {lit}`+` and {lit}`-`, then
{lit}`*` and {lit}`/`, then {lit}`^`.  A sign in front of an operand binds tighter than
all of them.  Parentheses, calls and signs nest, and the depth of the nesting is the
only thing the descent recurs on: what stands inside is read with one level less.

The descent looks at one lexeme at a time and does not care where it comes from.  A
{lit}`Feed` hands out the lexemes and takes the instructions.

Main definitions:

- {lit}`Feed`: where lexemes come from and where instructions go.
- {lit}`Descent.chain`: operators of one rank.
- {lit}`Descent.factor`: an operand, with the levels of nesting that are left.
- {lit}`Descent.whole`: one expression and nothing behind it.
-/

namespace TapeCalc

/-- Where a descent takes its lexemes from and where its instructions go. -/
structure Feed (σ : Type) where
  /-- The lexeme that is looked at, or nothing at the end. -/
  current : σ → Option Token
  /-- Where faults of the descent point. -/
  column : σ → Span
  /-- Look at the next lexeme. -/
  advance : Action σ Unit
  /-- Plant an instruction. -/
  plant : Opcode → Action σ Unit
  /-- Plant the instruction that loads the constant at an index. -/
  plantConstant : Nat → Action σ Unit

namespace Descent

variable {σ : Type} (feed : Feed σ)

/-- Fail with a fault at the lexeme that is looked at. -/
def fail (code : FaultCode) (detail : String) : Action σ Unit := fun state =>
  .error ⟨code, feed.column state, detail⟩ state

/-- Go past a lexeme that has to be there, or fail. -/
def expect (token : Token) (code : FaultCode) : Action σ Unit := do
  if feed.current (← get) = some token then feed.advance else fail feed code ""

/-- Operators of one rank, each with its operand: as long as the lexeme looked at is such
an operator, its right operand is read and the operation planted.  Every operator is a
lexeme, so a number of rounds greater than the length of the text is never used up. -/
def chain (operator? : Token → Option BinaryOp) (operand : Action σ Unit) :
    Nat → Action σ Unit
  | 0 => return
  | rounds + 1 => do
    match (feed.current (← get)).bind operator? with
    | none => return
    | some op =>
      feed.advance
      operand
      feed.plant (.binary op)
      chain operator? operand rounds

/-- An operand followed by operators of one rank. -/
def ranked (rounds : Nat) (operator? : Token → Option BinaryOp) (operand : Action σ Unit) :
    Action σ Unit := do
  operand
  chain feed operator? operand rounds

/-- All three ranks of operators over a way of reading operands. -/
def expression (rounds : Nat) (factor : Action σ Unit) : Action σ Unit :=
  ranked feed rounds Token.additive?
    (ranked feed rounds Token.multiplicative? (ranked feed rounds Token.power? factor))

/-- One level deeper, if there is one. -/
def nested (inner? : Option (Action σ Unit)) : Action σ Unit :=
  match inner? with
  | none => fail feed .tooDeeplyNested ""
  | some inner => inner

/-- An operand, given how operands one level deeper are read. -/
def factorOver (rounds : Nat) (inner? : Option (Action σ Unit)) : Action σ Unit := do
  match feed.current (← get) with
  | some (.constant index) =>
    feed.plantConstant index
    feed.advance
  | some (.load slot) =>
    feed.plant (.load slot)
    feed.advance
  | some .pi =>
    feed.plant .pi
    feed.advance
  | some .leftParen =>
    feed.advance
    nested feed (inner?.map (expression feed rounds))
    expect feed .rightParen .expectingRightParenthesis
  | some (.additive sign) =>
    feed.advance
    nested feed inner?
    if sign = .minus then feed.plant (.unary .neg)
  | some (.function op) =>
    feed.advance
    expect feed .leftParen .expectingLeftParenthesis
    nested feed (inner?.map (expression feed rounds))
    expect feed .rightParen .expectingRightParenthesis
    feed.plant (.unary op)
  | some _ => fail feed .syntaxError ""
  | none => fail feed .syntaxError "EXPECTED OPERAND"

/-- An operand with a number of levels of nesting left. -/
def factor (rounds : Nat) : Nat → Action σ Unit
  | 0 => factorOver feed rounds none
  | levels + 1 => factorOver feed rounds (some (factor rounds levels))

/-- One expression and nothing behind it. -/
def whole (rounds maxDepth : Nat) : Action σ Unit := do
  feed.advance
  if (feed.current (← get)).isNone then throw (.plain .missingExpression)
  expression feed rounds (factor feed rounds maxDepth)
  if (feed.current (← get)).isSome then fail feed .syntaxError "UNEXPECTED LEXEME"

end Descent

end TapeCalc
