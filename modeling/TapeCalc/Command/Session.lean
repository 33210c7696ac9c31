import TapeCalc.Command.Contents
import TapeCalc.Command.Lines
import TapeCalc.Command.Options
import TapeCalc.Journal

/-!
# Sessions

A session evaluates one expression, or every line of a file, and leaves a transcript:
results, reports of faults, and journal records in the order in which they happen.  The
verbosity only decides which of the records are shown.

Three libraries have a part in what is printed in the end.  {lit}`Record.isShown` and
{lit}`Record.line` stand for the logger, env_logger, with no filter set in the environment and
no time in front of a line.  {lit}`Fault.report` has the codes that ansi_term puts around bold
and red text.  What {lit}`Request.respond` answers to a refusal or a request for help stands for
a text that structopt makes up, which is not spelled out here.

Main definitions:

- {lit}`Evaluation.of`: one expression.
- {lit}`Transcript.ofExpression` and {lit}`Transcript.ofLines`: the two kinds of session.
- {lit}`Request.respond`: what is printed in the end, and the exit status.
-/

namespace TapeCalc

/-! ## One expression -/

/-- What came of an expression: the records, and the text of the result or a fault. -/
structure Evaluation where
  records : List Record
  outcome : Except Fault String

/-- The text of a value, rounded if the options ask for it. -/
def Options.valueText (options : Options) (value : Float) : String :=
  match options.precision with
  | some places => FloatText.fixed places value
  | none => plainText value

/-- The text of a result: the listing on a line of its own if asked for, and the value. -/
def Options.resultText (options : Options) (program : Program) (value : Float) : String :=
  if options.listing then program.listing ++ "\n" ++ options.valueText value
  else options.valueText value

/-- Compile an expression and evaluate it. -/
def Evaluation.of (options : Options) (text : String) : Evaluation :=
  let compilation := compilation text options.xName options.yName options.limits
  let records := compilation.records text
  match compilation.outcome with
  | .error fault => ⟨records, .error fault⟩
  | .ok program =>
    let run := program.run options.x options.y
    ⟨records ++ run.records program.words, run.outcome.map (options.resultText program)⟩

/-! ## Transcripts -/

/-- Something a session shows. -/
inductive Event where
  /-- A result, for the output. -/
  | result (text : String)
  /-- A report of a fault, for the error output. -/
  | report (text : String)
  /-- A record, for the error output if the verbosity allows it. -/
  | record (record : Record)

/-- The status of a session in which all went well. -/
def statusOk : Nat := 0

/-- The status of a session that could not read its input. -/
def statusUnreadable : Nat := 3

/-- The status a fault leads to. -/
def Fault.status (fault : Fault) : Nat :=
  match fault.kind with
  | .parse => 1
  | .evaluation => 1
  | .internal => 2

/-- A fault as it is reported: painted in bold, and in red if the calculator itself is broken. -/
def Fault.report (fault : Fault) : String :=
  match fault.kind with
  | .internal => "\x1b[1;31mPROGRAM ERROR: " ++ fault.message ++ "\x1b[0m"
  | _ => "\x1b[1m" ++ fault.message ++ "\x1b[0m"

namespace Evaluation

/-- What an evaluation shows, its report behind a label. -/
def events (label : String) (evaluation : Evaluation) : List Event :=
  evaluation.records.map .record ++
    match evaluation.outcome with
    | .ok text => [.result text]
    | .error fault => [.report (label ++ fault.report)]

/-- The status an evaluation leads to. -/
def status (evaluation : Evaluation) : Nat :=
  match evaluation.outcome with
  | .ok _ => statusOk
  | .error fault => fault.status

end Evaluation

/-- What a session shows, and its status. -/
structure Transcript where
  events : List Event
  status : Nat

namespace Transcript

/-- A session that does nothing. -/
def empty : Transcript := ⟨[], statusOk⟩

/-- A session that could not read its input. -/
def unreadable (reason : String) : Transcript := ⟨[.report reason], statusUnreadable⟩

/-- A transcript with more events in front of it. -/
def after (events : List Event) (transcript : Transcript) : Transcript :=
  { transcript with events := events ++ transcript.events }

/-- A session with one expression. -/
def ofExpression (options : Options) (text : String) : Transcript :=
  let evaluation := Evaluation.of options text
  ⟨evaluation.events "", evaluation.status⟩

/-- A session with the lines that are left, given the number of the next line, how many
lines have been evaluated, and the status so far. -/
def ofLinesFrom (options : Options) (number evaluated status : Nat) :
    List (List UInt8) → Transcript
  | [] => ⟨[.record (.evaluated evaluated)], status⟩
  | bytes :: rest =>
    match decodeLine bytes with
    | none => unreadable "stream did not contain valid UTF-8"
    | some line =>
      if isBlankLine line then ofLinesFrom options (number + 1) evaluated status rest
      else
        let evaluation := Evaluation.of options line
        (ofLinesFrom options (number + 1) (evaluated + 1) (max status evaluation.status)
          rest).after (evaluation.events (toString number ++ ": "))

/-- A session with the lines of a file, numbered from one. -/
def ofLines (options : Options) (lines : List (List UInt8)) : Transcript :=
  ofLinesFrom options 1 0 statusOk lines

end Transcript

/-! ## Responses -/

/-- What is printed, and the exit status. -/
structure Response where
  output : String
  errors : String
  status : Nat

/-- Whether the logger shows a record at a verbosity. -/
def Record.isShown (verbosity : UInt8) (record : Record) : Bool :=
  record.level.rank ≤ verbosity.toNat

/-- The line the logger shows a record as: its level in a column five characters wide, where
it comes from, and its message. -/
def Record.line (record : Record) : String :=
  let level := record.level.name
  "[" ++ level ++ String.ofList (List.replicate (5 - level.length) ' ') ++ " " ++
    record.target ++ "] " ++ record.message

namespace Event

/-- The line an event adds to the output. -/
def output? : Event → Option String
  | result text => some text
  | report _ => none
  | record _ => none

/-- The line an event adds to the error output. -/
def error? (verbosity : UInt8) : Event → Option String
  | result _ => none
  | report text => some text
  | record entry => if entry.isShown verbosity then some entry.line else none

end Event

/-- Lines, each with a newline behind it. -/
def joinLines (lines : List String) : String := String.join (lines.map (· ++ "\n"))

/-- What is printed of a transcript. -/
def Transcript.response (verbosity : UInt8) (transcript : Transcript) : Response :=
  { output := joinLines (transcript.events.filterMap Event.output?)
    errors := joinLines (transcript.events.filterMap (Event.error? verbosity))
    status := transcript.status }

namespace Options

/-- The session that the options ask for. -/
def transcript (options : Options) (contents : FileContents) : Transcript :=
  match options.source with
  | .terminal => .empty
  | .expression text => .ofExpression options text
  | .file _ =>
    match contents with
    | .bytes bytes => .ofLines options (splitLines bytes)
    | .unreadable failure => .unreadable failure.message

end Options

namespace Request

/-- The file a request reads, if it reads one. -/
def path? : Request → Option String
  | calculate options =>
    match options.source with
    | .file path => some path
    | _ => none
  | _ => none

/-- The answer to a request, given what its file holds.  The text of a usage note is only
hinted at. -/
def respond (contents : FileContents) : Request → Response
  | rejected => ⟨"", "USAGE", 1⟩
  | help => ⟨"USAGE: parseval [OPTIONS] [expression]\n", "", 0⟩
  | version => ⟨"parseval 0.3.0\n", "", 0⟩
  | calculate options => (options.transcript contents).response options.verbosity

end Request

end TapeCalc
