import TapeCalc.Command.Session
import TapeCalc.Proofs.Command.Lines

/-!
# A file is answered line by line

The answer to a file is put together from the answers to its lines.  Each line that is not blank
is answered as if it stood alone: its results are printed in the order of the lines, its reports
get the number of the line in front, and the greatest status counts.  Blank lines are numbered as
well.  A line that is no text ends the answer, and only that this happened is reported of it.

This is said of answers without records, which are what is printed without any verbosity.

Main definitions:

- {lit}`Options.answer`: the answer to one expression.
- {lit}`evaluatedFrom`: the lines of a file that are evaluated, with their numbers.

Main results:

- Theorem {lit}`Transcript.response_ofLinesFrom`: what is printed of the lines that are left.
- Theorem {lit}`respond_file_eq`: the answer to a file, for all options and lines.
-/

namespace TapeCalc

/-! ## Answers to one expression -/

/-- The answer to one expression. -/
def Options.answer (options : Options) (text : String) : Response :=
  (Request.calculate { options with source := .expression text }).respond (.bytes [])

/-- What an evaluation prints to the output. -/
def Evaluation.output (evaluation : Evaluation) : List String :=
  match evaluation.outcome with
  | .ok text => [text]
  | .error _ => []

/-- What an evaluation reports. -/
def Evaluation.reports (evaluation : Evaluation) : List String :=
  match evaluation.outcome with
  | .ok _ => []
  | .error fault => [fault.report]

/-- Every record takes some verbosity. -/
theorem Record.isShown_zero (record : Record) : record.isShown 0 = false := by
  cases record <;> rfl

namespace Event

/-- Records are no results. -/
theorem filterMap_output?_records (records : List Record) :
    (records.map Event.record).filterMap output? = [] := by
  simp [List.filterMap_map, Function.comp_def, output?]

/-- Without verbosity records are not shown. -/
theorem filterMap_error?_records (records : List Record) :
    (records.map Event.record).filterMap (error? 0) = [] := by
  simp [List.filterMap_map, Function.comp_def, error?, Record.isShown_zero]

end Event

namespace Evaluation

/-- What is printed of an evaluation. -/
theorem filterMap_output?_events (label : String) (evaluation : Evaluation) :
    (evaluation.events label).filterMap Event.output? = evaluation.output := by
  rw [events, List.filterMap_append, Event.filterMap_output?_records, output]
  cases evaluation.outcome <;> rfl

/-- What is reported of an evaluation without verbosity, each report behind the label. -/
theorem filterMap_error?_events (label : String) (evaluation : Evaluation) :
    (evaluation.events label).filterMap (Event.error? 0) =
      evaluation.reports.map (label ++ ·) := by
  rw [events, List.filterMap_append, Event.filterMap_error?_records, reports]
  cases evaluation.outcome <;> rfl

end Evaluation

/-- The lines of two lists together. -/
theorem joinLines_append (first second : List String) :
    joinLines (first ++ second) = joinLines first ++ joinLines second := by
  rw [joinLines, List.map_append, String.join_append, joinLines, joinLines]

/-- Without verbosity the answer to an expression is what its evaluation prints and reports. -/
theorem Options.answer_eq {options : Options} (silent : options.verbosity = 0) (text : String) :
    options.answer text =
      { output := joinLines (Evaluation.of options text).output
        errors := joinLines (Evaluation.of options text).reports
        status := (Evaluation.of options text).status } := by
  have answered : options.answer text =
      { output := joinLines (((Evaluation.of options text).events "").filterMap Event.output?)
        errors := joinLines (((Evaluation.of options text).events "").filterMap
          (Event.error? options.verbosity))
        status := (Evaluation.of options text).status } := rfl
  rw [answered, silent, Evaluation.filterMap_output?_events, Evaluation.filterMap_error?_events]
  simp

/-- A fault never leads to the status of a session in which all went well. -/
theorem Fault.status_ne_ok (fault : Fault) : fault.status ≠ statusOk := by
  rw [status]
  cases fault.kind <;> decide

/-- What an evaluation reports, behind a label if there is anything to report. -/
theorem Evaluation.joinLines_reports (evaluation : Evaluation) (label : String) :
    joinLines (evaluation.reports.map (label ++ ·)) =
      if evaluation.status = statusOk then "" else label ++ joinLines evaluation.reports := by
  rw [reports, status]
  cases evaluation.outcome with
  | ok text => rfl
  | error fault =>
    dsimp only
    rw [if_neg fault.status_ne_ok]
    simp [joinLines, String.append_assoc]

/-! ## Lines that are evaluated -/

/-- The texts of the lines in front of the first that is no text. -/
def leadingTexts (lines : List (List UInt8)) : List String :=
  (lines.takeWhile fun line => (decodeLine line).isSome).filterMap decodeLine

/-- The lines that are evaluated, each with its number: those that are not blank, in front of the
first that is no text. -/
def evaluatedFrom (number : Nat) (lines : List (List UInt8)) : List (String × Nat) :=
  ((leadingTexts lines).zipIdx number).filter fun line => !isBlankLine line.1

/-- What a file reports of a line: what the line reports by itself, behind its number. -/
def Options.numberedErrors (options : Options) (line : String × Nat) : String :=
  let answer := options.answer line.1
  if answer.status = statusOk then "" else toString line.2 ++ ": " ++ answer.errors

section Evaluated

variable {number : Nat} {bytes : List UInt8} {text : String} (rest : List (List UInt8))

/-- A line that is no text is the last that is looked at. -/
theorem evaluatedFrom_of_none (undecodable : decodeLine bytes = none) :
    evaluatedFrom number (bytes :: rest) = [] := by
  simp [evaluatedFrom, leadingTexts, undecodable]

/-- A blank line is numbered and not evaluated. -/
theorem evaluatedFrom_of_blank (decoded : decodeLine bytes = some text)
    (blank : isBlankLine text = true) :
    evaluatedFrom number (bytes :: rest) = evaluatedFrom (number + 1) rest := by
  simp [evaluatedFrom, leadingTexts, decoded, blank]

/-- A line that is not blank is evaluated. -/
theorem evaluatedFrom_of_text (decoded : decodeLine bytes = some text)
    (shown : isBlankLine text = false) :
    evaluatedFrom number (bytes :: rest) = (text, number) :: evaluatedFrom (number + 1) rest := by
  simp [evaluatedFrom, leadingTexts, decoded, shown]

end Evaluated

/-! ## Files -/

/-- The answer to lines, given the number of the first and the status so far: the answers to those
that are evaluated, and a report behind them if there is a line that is no text. -/
def Options.lineByLine (options : Options) (number status : Nat) (lines : List (List UInt8)) :
    Response :=
  let evaluated := evaluatedFrom number lines
  let readable := lines.all fun line => (decodeLine line).isSome
  { output := String.join (evaluated.map fun line => (options.answer line.1).output)
    errors := String.join (evaluated.map options.numberedErrors) ++
      if readable then "" else "stream did not contain valid UTF-8\n"
    status :=
      if readable then (evaluated.map fun line => (options.answer line.1).status).foldl max status
      else statusUnreadable }

/-- A response with the answer to a line in front of it. -/
def Response.after (output errors : String) (response : Response) : Response :=
  { response with output := output ++ response.output, errors := errors ++ response.errors }

/-- What is printed of a session with more events in front of it. -/
theorem Transcript.response_after (verbosity : UInt8) (events : List Event)
    (transcript : Transcript) :
    (transcript.after events).response verbosity =
      (transcript.response verbosity).after (joinLines (events.filterMap Event.output?))
        (joinLines (events.filterMap (Event.error? verbosity))) := by
  simp [Transcript.response, Transcript.after, Response.after, joinLines_append]

/-- Lines are answered one by one. -/
theorem Transcript.response_ofLinesFrom {options : Options} (silent : options.verbosity = 0)
    (number count status : Nat) (lines : List (List UInt8)) :
    (ofLinesFrom options number count status lines).response 0 =
      options.lineByLine number status lines := by
  induction lines generalizing number count status with
  | nil => rfl
  | cons bytes rest ih =>
    rw [ofLinesFrom]
    cases decoded : decodeLine bytes with
    | none =>
      simp only [Options.lineByLine, evaluatedFrom_of_none rest decoded, List.all_cons, decoded]
      rfl
    | some text =>
      have readable : ((bytes :: rest).all fun line => (decodeLine line).isSome) =
          rest.all fun line => (decodeLine line).isSome := by
        rw [List.all_cons, decoded, Option.isSome_some, Bool.true_and]
      dsimp only
      cases blank : isBlankLine text with
      | true =>
        rw [if_pos rfl, ih, Options.lineByLine, Options.lineByLine,
          evaluatedFrom_of_blank rest decoded blank, readable]
      | false =>
        have answered := Options.answer_eq silent text
        rw [if_neg Bool.false_ne_true, response_after, Evaluation.filterMap_output?_events,
          Evaluation.filterMap_error?_events, Evaluation.joinLines_reports, ih, Options.lineByLine,
          Options.lineByLine, evaluatedFrom_of_text rest decoded blank, readable]
        simp only [Response.after, List.map_cons, String.join_cons, List.foldl_cons, answered,
          Options.numberedErrors, String.append_assoc]

/-- An empty line at the end is not evaluated. -/
theorem evaluatedFrom_append_nil (number : Nat) (lines : List (List UInt8)) :
    evaluatedFrom number (lines ++ [[]]) = evaluatedFrom number lines := by
  have decodedEmpty : decodeLine [] = some "" := decodeLine_bytesOf ""
  induction lines generalizing number with
  | nil => exact evaluatedFrom_of_blank [] decodedEmpty rfl
  | cons bytes rest ih =>
    rw [List.cons_append]
    cases decoded : decodeLine bytes with
    | none => rw [evaluatedFrom_of_none _ decoded, evaluatedFrom_of_none _ decoded]
    | some text =>
      cases blank : isBlankLine text with
      | true =>
        rw [evaluatedFrom_of_blank _ decoded blank, evaluatedFrom_of_blank _ decoded blank, ih]
      | false =>
        rw [evaluatedFrom_of_text _ decoded blank, evaluatedFrom_of_text _ decoded blank, ih]

/-- An empty line at the end changes no answer. -/
theorem Options.lineByLine_append_nil (options : Options) (number status : Nat)
    (lines : List (List UInt8)) :
    options.lineByLine number status (lines ++ [[]]) = options.lineByLine number status lines := by
  have decodedEmpty : decodeLine [] = some "" := decodeLine_bytesOf ""
  rw [lineByLine, lineByLine, evaluatedFrom_append_nil, List.all_append]
  simp [decodedEmpty]

/-- Without verbosity the answer to a file is put together from the answers to its lines.  They end
in newlines, with or without a carriage return in front, but for the last one, behind which there
need not be a newline.  The output is that of the lines that are not blank, one after the other.
What a line reports stands behind its number, which counts the blank lines too.  The status is the
greatest one.  If a line is no text, the lines in front of it are answered, this failure is reported
behind them, and the status is that of a session that could not read its input. -/
theorem respond_file_eq {options : Options} (silent : options.verbosity = 0) (path : String)
    {lines : List (List UInt8 × LineEnd)} {last : List UInt8}
    (isLine : ∀ line ∈ lines.map Prod.fst ++ [last], IsLine line) :
    let response := (Request.calculate { options with source := .file path }).respond
      (.bytes (fileOf lines last))
    let evaluated := evaluatedFrom 1 (lines.map Prod.fst ++ [last])
    let readable := (lines.map Prod.fst ++ [last]).all fun line => (decodeLine line).isSome
    response.output = String.join (evaluated.map fun line => (options.answer line.1).output) ∧
      response.errors = String.join (evaluated.map fun line =>
          let answer := options.answer line.1
          if answer.status = statusOk then "" else toString line.2 ++ ": " ++ answer.errors) ++
        (if readable then "" else "stream did not contain valid UTF-8\n") ∧
      response.status =
        if readable then (evaluated.map fun line => (options.answer line.1).status).foldl max 0
        else 3 := by
  have isLines := List.forall_mem_append.mp isLine
  have whole := (isLines.2 last List.mem_cons_self).1
  have split := splitLines_fileOf
    (fun line member => isLines.1 _ (List.mem_map_of_mem member)) whole
  have silent' : { options with source := .file path }.verbosity = 0 := silent
  have answered := Transcript.response_ofLinesFrom silent' 1 0 statusOk
    (splitLines (fileOf lines last))
  have added : options.lineByLine 1 statusOk
      (lines.map Prod.fst ++ if last = [] then [] else [last]) =
        options.lineByLine 1 statusOk (lines.map Prod.fst ++ [last]) := by
    split
    · rename_i empty
      rw [empty, options.lineByLine_append_nil, List.append_nil]
    · rfl
  have same : (Request.calculate { options with source := .file path }).respond
      (.bytes (fileOf lines last)) =
        options.lineByLine 1 statusOk (lines.map Prod.fst ++ [last]) := by
    rw [← added, ← split]
    exact (congrArg (Transcript.response · _) silent).trans answered
  rw [same]
  exact ⟨rfl, rfl, rfl⟩

/-- The second line is a blank that takes three bytes, and the fourth is no text. -/
theorem respond_file_of_four_lines :
    let options : Options := ⟨.terminal, "x", "y", 0, 0, false, none, .standard, 0⟩
    let lines : List (List UInt8 × LineEnd) :=
      [(bytesOf "1+2", .newline), (bytesOf "\u3000", .returnNewline),
        (bytesOf "1/x", .returnNewline), ([0xFF], .newline)]
    let response := (Request.calculate { options with source := .file "sums" }).respond
      (.bytes (fileOf lines (bytesOf "4")))
    (∀ line ∈ lines.map Prod.fst ++ [bytesOf "4"], IsLine line) ∧
      response.output = "3\n" ∧
      response.errors =
        "3: \x1b[1mDIVISION BY ZERO\x1b[0m\nstream did not contain valid UTF-8\n" ∧
      response.status = 3 := by
  intro options lines response
  have isLine : ∀ line ∈ lines.map Prod.fst ++ [bytesOf "4"], IsLine line := by
    intro line member
    simp only [lines, List.map_cons, List.map_nil, List.cons_append, List.nil_append,
      List.mem_cons, List.not_mem_nil, or_false] at member
    rcases member with rfl | rfl | rfl | rfl | rfl
    · exact isLine_bytesOf.mpr (by decide)
    · exact isLine_bytesOf.mpr (by decide)
    · exact isLine_bytesOf.mpr (by decide)
    · decide
    · exact isLine_bytesOf.mpr (by decide)
  have silent : options.verbosity = 0 := rfl
  obtain ⟨output, errors, status⟩ := respond_file_eq silent "sums" isLine
  refine ⟨isLine, output.trans ?_, errors.trans ?_, status.trans ?_⟩ <;> decide +kernel

end TapeCalc
