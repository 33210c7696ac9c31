import TapeCalc.Compiler.Basic

/-!
# Compiling from a list of lexemes

The same descent over lexemes that have all been read beforehand.  The list ends with the
end of the text or with the fault that reading met, and that fault only counts when the
descent gets as far.
-/

namespace TapeCalc

/-- A descent over a list: the lexeme that is looked at, those ahead, and the tape. -/
structure Prelexed where
  looking : Option Pull
  ahead : List Pull
  tape : Tape

namespace Prelexed

/-- The state before the first lexeme of a list. -/
def start (pulls : List Pull) (limits : Limits) : Prelexed :=
  ⟨none, pulls, Tape.empty limits.maxCodeLen⟩

/-- The lexeme that is looked at, or nothing at the end. -/
def current (state : Prelexed) : Option Token :=
  match state.looking.map Pull.result with
  | some (.ok token?) => token?
  | _ => none

/-- The range of the lexeme that is looked at. -/
def column (state : Prelexed) : Span :=
  (state.looking.map fun pull => pull.after.column).getD .nowhere

/-- Look at the next item of the list, or fail with the fault it is. -/
def advance : Action Prelexed Unit := fun state =>
  match state.ahead with
  | [] => .ok () { state with looking := none }
  | pull :: ahead =>
    let reached := { state with looking := some pull, ahead }
    match pull.result with
    | .ok _ => .ok () reached
    | .error fault => .error fault reached

/-- Run a step on the tape.  Its faults point at the lexeme that is looked at. -/
def onTape (step : Action Tape Unit) : Action Prelexed Unit :=
  Action.mapFault (fun state fault => fault.inColumn state.column)
    (Action.onPart tape (fun state tape => { state with tape }) step)

/-- Lexemes are taken from the list, and instructions go onto the tape. -/
def feed : Feed Prelexed :=
  { current := current
    column := column
    advance := advance
    plant := fun opcode => onTape (Tape.plant opcode)
    plantConstant := fun index => onTape (Tape.plantConstant index) }

/-- The program of the lexemes of a text, with the pool that reading all of them left. -/
def compile (symbols : SymbolTable) (text : List Char) (limits : Limits) :
    Except Fault Program :=
  let lexer := Lexer.ofText text (Pool.empty limits.maxConstants)
  let pulls := lexer.pullAll symbols
  let pool := ((pulls.getLast?.map Pull.after).getD lexer).pool
  match Descent.whole feed (text.length + 1) limits.maxDepth (start pulls limits) with
  | .ok () reached => .ok ⟨reached.tape, pool⟩
  | .error fault _ => .error fault

end Prelexed

end TapeCalc
