import TapeCalc.Compiler.Basic
import TapeCalc.Machine.Basic
import TapeCalc.Program.Listing
import TapeCalc.Text.Quoted

/-!
# The journal

Compiling and evaluating leave records behind: each lexeme read, each tape finished,
each instruction started, and each evaluation that failed.  A record has a level, the
part of the calculator it comes from, and a message.

Main definitions:

- {lit}`Record` with {lit}`Record.level`, {lit}`Record.target` and {lit}`Record.message`.
- {lit}`Compilation.records` and {lit}`Run.records`: what the two activities leave behind.
-/

namespace TapeCalc

/-- How much a record matters, from the most to the least. -/
inductive Level where
  | warn
  | info
  | debug
  | trace
deriving DecidableEq, Inhabited

namespace Level

/-- The rank of a level: how much verbosity it takes to be shown. -/
def rank : Level → Nat
  | warn => 1
  | info => 2
  | debug => 3
  | trace => 4

/-- The name of a level. -/
def name : Level → String
  | warn => "WARN"
  | info => "INFO"
  | debug => "DEBUG"
  | trace => "TRACE"

end Level

/-- A record of the journal. -/
inductive Record where
  /-- A lexeme was read. -/
  | lexeme (lexeme : Lexeme)
  /-- A text was compiled to the program with a listing. -/
  | compiled (text listing : String)
  /-- An instruction is about to run. -/
  | step (step : Step)
  /-- The numbers did not allow an evaluation to end. -/
  | failed (fault : Fault)
  /-- A tape could not be run. -/
  | corrupt (words : List Word) (fault : Fault)
  /-- A batch has ended. -/
  | evaluated (lines : Nat)

namespace Record

/-- How much a record matters. -/
def level : Record → Level
  | lexeme _ => .trace
  | compiled _ _ => .debug
  | step _ => .trace
  | failed _ => .debug
  | corrupt _ _ => .warn
  | evaluated _ => .info

/-- The part of the calculator a record comes from. -/
def target : Record → String
  | lexeme _ => "parseval::lang::lex"
  | compiled _ _ => "parseval::lang::parse"
  | step _ => "parseval::mach::runtime"
  | failed _ => "parseval::mach::runtime"
  | corrupt _ _ => "parseval::mach::runtime"
  | evaluated _ => "parseval::term"

/-- A list in brackets. -/
def bracketed (items : List String) : String := "[" ++ ", ".intercalate items ++ "]"

/-- A position in a column three characters wide. -/
def padded (position : Nat) : String :=
  let digits := toString position
  String.ofList (List.replicate (3 - digits.length) ' ') ++ digits

/-- The message of a record. -/
def message : Record → String
  | lexeme ⟨token, column⟩ => token.display ++ " at " ++ column.render
  | compiled text listing => quote text ++ " => " ++ listing
  | step ⟨position, opcode, stack⟩ =>
    padded position ++ " " ++ opcode.name ++ " " ++ bracketed (stack.reverse.map markedText)
  | failed fault => "evaluation failed: " ++ fault.message
  | corrupt words fault =>
    "corrupt tape " ++ bracketed (words.map fun word => toString word.toNat) ++ ": " ++
      fault.message
  | evaluated lines => toString lines ++ " lines evaluated"

/-- A record as the library shows it: its level and its message. -/
def brief (record : Record) : String := record.level.name ++ " " ++ record.message

end Record

/-- The records of a compilation: its lexemes, and the program if there is one. -/
def Compilation.records (compilation : Compilation) (text : String) : List Record :=
  compilation.lexemes.map .lexeme ++
    match compilation.outcome with
    | .error _ => []
    | .ok program => [.compiled text program.listing]

/-- The records of a run: its instructions, and its failure if it failed. -/
def Run.records (run : Run) (words : List Word) : List Record :=
  run.steps.map .step ++
    match run.outcome with
    | .ok _ => []
    | .error fault => if fault.kind = .internal then [.corrupt words fault] else [.failed fault]

end TapeCalc
