import TapeCalc.Gap
import TapeCalc.Literal.Basic
import TapeCalc.Program.Pool
import TapeCalc.Symbols

/-!
# Reading lexemes

Lexemes are read one at a time from what is left of the text.  Blanks and comments in
front of a lexeme are skipped, then the longest spelling counts, and where no spelling
is found a literal may start.  The value of a literal goes into the pool as soon as it
is read.

The lexer remembers where its latest lexeme or fault was found, and it can be asked
again after a fault.

Main definitions:

- {lit}`Lexer.skip` and {lit}`Lexer.next`: the two steps.
- {lit}`Lexer.pullAll`: all steps up to the end or the first fault.
-/

namespace TapeCalc

/-! ## Lexers -/

/-- What is left of a text, how many characters have been read, where the latest lexeme
or fault was found, and the values of the literals so far. -/
structure Lexer where
  rest : List Char
  position : Nat
  column : Span
  pool : Pool

namespace Lexer

/-- A lexer at the start of a text. -/
def ofText (text : List Char) (pool : Pool) : Lexer := ⟨text, 0, .nowhere, pool⟩

/-- Whether nothing is left to read. -/
def atEnd (lexer : Lexer) : Bool := lexer.rest.isEmpty

/-- The lexer behind the next characters, which become its latest lexeme. -/
def advance (lexer : Lexer) (length : Nat) : Lexer :=
  { lexer with
    rest := lexer.rest.drop length
    position := lexer.position + length
    column := ⟨lexer.position, lexer.position + length⟩ }

/-- A fault at the range the lexer remembers. -/
def fault (lexer : Lexer) (code : FaultCode) : Fault :=
  (Fault.plain code).inColumn lexer.column

/-- Pass over blanks and comments.  An open comment is a fault that points at all of it. -/
def skip : Action Lexer Unit := fun lexer =>
  let gap := Gap.scan lexer.position none lexer.rest
  let after := { lexer with rest := gap.rest, position := gap.position }
  match gap.openedAt with
  | none => .ok () after
  | some start =>
    let reached := { after with column := ⟨start, gap.position⟩ }
    .error (reached.fault .unterminatedComment) reached

/-- Keep the value of a literal, or report at its range that the pool is full. -/
def store (value : Float) : Action Lexer Nat :=
  Action.mapFault (fun lexer fault => fault.inColumn lexer.column)
    (Action.onPart pool (fun lexer pool => { lexer with pool }) (Pool.store value))

/-- Read a literal, or refuse the whole run of characters it would be read from. -/
def literal : Action Lexer Token := do
  let lexer ← get
  let run := (Literal.run lexer.rest).1
  let after := lexer.advance run.length
  set after
  match Literal.value? run with
  | some value => return .constant (← store value)
  | none => throw (after.fault .badNumberFormat)

/-- Read the next lexeme, or nothing at the end of the text. -/
def next (symbols : SymbolTable) : Action Lexer (Option Token) := do
  skip
  let lexer ← get
  match symbols.lookup lexer.rest with
  | some (length, token) =>
    set (lexer.advance length)
    return some token
  | none =>
    match lexer.rest with
    | [] =>
      set (lexer.advance 0)
      return none
    | c :: _ =>
      if Literal.opens c then return some (← literal)
      else
        let reached := { lexer with column := ⟨lexer.position, lexer.position + 1⟩ }
        set reached
        throw (reached.fault .notRecognisable)

end Lexer

/-! ## Reading to the end -/

/-- One lexeme asked for: what came of it, and the lexer after it. -/
structure Pull where
  result : Except Fault (Option Token)
  after : Lexer

namespace Lexer

/-- Ask for one lexeme. -/
def pull (symbols : SymbolTable) (lexer : Lexer) : Pull :=
  match next symbols lexer with
  | .ok token? after => ⟨.ok token?, after⟩
  | .error fault after => ⟨.error fault, after⟩

/-- Ask for lexemes up to the end or the first fault, at most a number of times. -/
def pulls (symbols : SymbolTable) : Nat → Lexer → List Pull
  | 0, _ => []
  | rounds + 1, lexer =>
    let first := pull symbols lexer
    match first.result with
    | .ok (some _) => first :: pulls symbols rounds first.after
    | _ => [first]

/-- All lexemes of the text that is left, closed by the end or the first fault.  Each lexeme
takes at least one character, so there is one pull more than characters at most. -/
def pullAll (symbols : SymbolTable) (lexer : Lexer) : List Pull :=
  pulls symbols (lexer.rest.length + 1) lexer

end Lexer

end TapeCalc
