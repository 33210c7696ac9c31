import TapeCalc.Descent
import TapeCalc.Lexer
import TapeCalc.Program.Basic

/-!
# Compiling

A text is compiled in one pass: the descent asks the lexer for one lexeme after the other,
literals go into the pool as they are read, and instructions go onto the tape.

Main definitions:

- {lit}`Compiler`: the state between two lexemes, and {lit}`Compiler.feed`.
- {lit}`compile`: the program of a text, or what is wrong with it.
-/

namespace TapeCalc

/-- The state of a compilation: the lexer with the pool, the tape so far, the lexeme that
is looked at, and all lexemes read, newest first. -/
structure Compiler where
  lexer : Lexer
  tape : Tape
  current : Option Token
  lexemes : List Lexeme

namespace Compiler

/-- The state before the first lexeme. -/
def start (text : List Char) (limits : Limits) : Compiler :=
  { lexer := .ofText text (Pool.empty limits.maxConstants)
    tape := Tape.empty limits.maxCodeLen
    current := none
    lexemes := [] }

/-- What the compilation has produced. -/
def program (compiler : Compiler) : Program := ⟨compiler.tape, compiler.lexer.pool⟩

/-- Look at the next lexeme. -/
def advance (symbols : SymbolTable) : Action Compiler Unit := do
  let token? ← Action.onPart lexer (fun compiler lexer => { compiler with lexer })
    (Lexer.next symbols)
  modify fun compiler =>
    { compiler with
      current := token?
      lexemes :=
        match token? with
        | none => compiler.lexemes
        | some token => ⟨token, compiler.lexer.column⟩ :: compiler.lexemes }

/-- Run a step on the tape.  Its faults point at the lexeme that is looked at. -/
def onTape (step : Action Tape Unit) : Action Compiler Unit :=
  Action.mapFault (fun compiler fault => fault.inColumn compiler.lexer.column)
    (Action.onPart tape (fun compiler tape => { compiler with tape }) step)

/-- Lexemes are read from the text as they are needed, and instructions go onto the tape. -/
def feed (symbols : SymbolTable) : Feed Compiler :=
  { current := current
    column := fun compiler => compiler.lexer.column
    advance := advance symbols
    plant := fun opcode => onTape (Tape.plant opcode)
    plantConstant := fun index => onTape (Tape.plantConstant index) }

end Compiler

/-- What came of a text: the lexemes read, and a program or a fault. -/
structure Compilation where
  lexemes : List Lexeme
  outcome : Except Fault Program

/-- Compile a text in which the names of a table are bound. -/
def compileWith (symbols : SymbolTable) (text : List Char) (limits : Limits) : Compilation :=
  match Descent.whole (Compiler.feed symbols) (text.length + 1) limits.maxDepth
    (.start text limits) with
  | .ok () reached => ⟨reached.lexemes.reverse, .ok reached.program⟩
  | .error fault reached => ⟨reached.lexemes.reverse, .error fault⟩

/-- Compile a text, after binding the names of the variables.  An empty name leaves its
variable out. -/
def compilation (text xName yName : String) (limits : Limits) : Compilation :=
  match SymbolTable.ofNames xName yName with
  | .error fault => ⟨[], .error fault⟩
  | .ok symbols => compileWith symbols text.toList limits

/-- The program of a text, or what is wrong with it. -/
def compile (text xName yName : String) (limits : Limits) : Except Fault Program :=
  (compilation text xName yName limits).outcome

end TapeCalc
