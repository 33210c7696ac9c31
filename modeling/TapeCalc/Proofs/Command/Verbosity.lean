import TapeCalc.Proofs.Command.Batch

/-!
# How much is shown

How often more output is asked for only decides which records are shown.  A session with the same
options otherwise does the same at every verbosity, so the output and the status stay the same.  The
records shown at one verbosity are among those shown at a higher one, in the same order, and from
four on all of them are shown.

But the verbosity is kept in eight bits.  It is the number of occurrences without its multiples of
256, and an occurrence that completes such a multiple hides what was shown without it.

The switch that is counted changes nothing in how the other arguments are read.  This is a fact
about the reader of arguments, and what is said of sessions does not depend on it.

Main definitions:

- {lit}`Notes.louder`: more occurrences of the switch for more output.
- {lit}`Transcript.shown`: the records of a session that are shown.
- {lit}`Transcript.errorLines`: the lines of the error output.

Main results:

- Theorem {lit}`Notes.read_louder`: arguments are read alike however often the switch has occurred.
- Theorem {lit}`Request.ofArguments_of_verbose`: the options that a number of occurrences leads to.
- Theorem {lit}`Options.transcript_withVerbosity`: what a session does at every verbosity.
- Theorem {lit}`Transcript.filterMap_error?_records`: how records are shown in the error output.
- Theorem {lit}`Transcript.shown_eq_filter`: records that are shown at two verbosities.
- Theorem {lit}`more_verbosity_shows_more`: options with two numbers of occurrences.
-/

namespace TapeCalc

/-! ## Occurrences of the switch -/

namespace Notes

variable {count : Nat} {notes : Notes}

/-- The notes with more occurrences of the switch for more output. -/
def louder (count : Nat) (notes : Notes) : Notes :=
  { notes with verbose := notes.verbose + count }

/-- What has been read, with more occurrences of this switch. -/
def louderReading (count : Nat) (reading : Reading) : Reading :=
  reading.map (Prod.map (louder count) id)

/-- A setting that waits for its value is settled alike. -/
theorem settle_louder (waiting : Option Setting) :
    (notes.louder count).settle waiting = (notes.settle waiting).louder count := by
  cases waiting <;> rfl

/-- A switch is noted alike. -/
theorem switch_louder (switch : Switch) :
    (notes.louder count).switch switch = (notes.switch switch).map (louder count) := by
  cases switch with
  | verbose => simp [Notes.switch, louder, Except.map, Nat.add_right_comm]
  | listing | help | version => rfl

/-- An expression is noted alike. -/
theorem argument_louder (text : String) :
    (notes.louder count).argument text = (notes.argument text).map (louder count) := by
  have same : (notes.louder count).expression = notes.expression := rfl
  unfold argument
  rw [same]
  cases notes.expression <;> rfl

/-- A long option is read alike. -/
theorem long_louder (body : List Char) :
    (notes.louder count).long body = louderReading count (notes.long body) := by
  unfold long
  dsimp only
  generalize String.ofList (body.takeWhile (· != '=')) = name
  cases Setting.ofLong? name with
  | some setting => cases body.dropWhile (· != '=') <;> rfl
  | none =>
    dsimp only
    cases Switch.ofLong? name with
    | none => rfl
    | some switch =>
      dsimp only
      rw [switch_louder]
      cases notes.switch switch <;> rfl

/-- A group of letters is read alike. -/
theorem letters_louder (group : List Char) :
    (notes.louder count).letters group = louderReading count (notes.letters group) := by
  induction group generalizing notes with
  | nil => rfl
  | cons letter rest ih =>
    rw [letters, letters]
    cases Setting.ofLetter? letter with
    | some setting => cases rest <;> rfl
    | none =>
      dsimp only
      cases Switch.ofLetter? letter with
      | none => rfl
      | some switch =>
        dsimp only
        rw [switch_louder]
        cases notes.switch switch with
        | error stop => rfl
        | ok noted => exact ih

/-- An argument that is no value is read alike. -/
theorem option_louder (text : String) :
    (notes.louder count).option text = louderReading count (notes.option text) := by
  unfold option
  split
  · exact long_louder _
  · exact letters_louder _
  · rw [argument_louder]
    cases notes.argument text <;> rfl

/-- Expressions are noted alike, one after the other. -/
theorem foldlM_argument_louder (texts : List String) :
    texts.foldlM argument (notes.louder count) =
      (texts.foldlM argument notes).map (louder count) := by
  induction texts generalizing notes with
  | nil => rfl
  | cons text texts ih =>
    rw [List.foldlM_cons, List.foldlM_cons, argument_louder]
    cases notes.argument text with
    | error stop => rfl
    | ok noted => exact ih

/-- Arguments are read alike however often the switch for more output has occurred before. -/
theorem read_louder (waiting : Option Setting) (arguments : List String) :
    (notes.louder count).read waiting arguments =
      (notes.read waiting arguments).map (louder count) := by
  induction arguments generalizing notes waiting with
  | nil => exact congrArg Except.ok (settle_louder waiting)
  | cons text rest ih =>
    rw [read, read]
    cases waiting.filter fun setting => setting.takes text.toList with
    | some setting => exact @ih (notes.note setting (some text)) none
    | none =>
      dsimp only
      rw [settle_louder]
      split
      · exact foldlM_argument_louder rest
      · rw [option_louder]
        cases (notes.settle waiting).option text with
        | error stop => rfl
        | ok reading => exact ih reading.2

/-- In front of other arguments the switch is counted, and the others are read as they are without
it. -/
theorem read_replicate_verbose (count : Nat) (arguments : List String) :
    notes.read none (List.replicate count "-v" ++ arguments) =
      (notes.read none arguments).map (louder count) := by
  induction count generalizing notes with
  | zero =>
    rw [List.replicate_zero, List.nil_append]
    cases notes.read none arguments <;> rfl
  | succ count ih =>
    have first (rest : List String) :
        notes.read none ("-v" :: rest) = (notes.louder 1).read none rest := rfl
    rw [List.replicate_succ, List.cons_append, first, ih, read_louder]
    cases notes.read none arguments with
    | error stop => rfl
    | ok noted => simp [Except.map, louder, Nat.add_left_comm, Nat.add_comm]

end Notes

/-! ## Verbosity of a session -/

/-- The options at another verbosity. -/
def Options.withVerbosity (verbosity : UInt8) (options : Options) : Options :=
  { options with verbosity }

/-- The number of occurrences is the verbosity, and nothing else depends on it. -/
theorem Notes.options?_verbose (notes : Notes) (count : Nat) :
    { notes with verbose := count }.options? =
      notes.options?.map (Options.withVerbosity (UInt8.ofNat count)) := by
  unfold options?
  split
  · rfl
  · simp only [Option.pure_def, Option.bind_eq_bind, Option.map_bind, Function.comp_def]
    rfl

/-- An expression is evaluated alike at every verbosity. -/
theorem Evaluation.of_withVerbosity (options : Options) (verbosity : UInt8) (text : String) :
    Evaluation.of (options.withVerbosity verbosity) text = Evaluation.of options text :=
  rfl

/-- Lines are evaluated alike at every verbosity. -/
theorem Transcript.ofLinesFrom_withVerbosity (options : Options) (verbosity : UInt8)
    (number evaluated status : Nat) (lines : List (List UInt8)) :
    ofLinesFrom (options.withVerbosity verbosity) number evaluated status lines =
      ofLinesFrom options number evaluated status lines := by
  induction lines generalizing number evaluated status with
  | nil => rfl
  | cons bytes rest ih =>
    rw [ofLinesFrom, ofLinesFrom]
    cases decodeLine bytes with
    | none => rfl
    | some line =>
      dsimp only
      rw [Evaluation.of_withVerbosity, ih, ih]

/-- A session does the same at every verbosity. -/
theorem Options.transcript_withVerbosity (options : Options) (verbosity : UInt8)
    (contents : FileContents) :
    (options.withVerbosity verbosity).transcript contents = options.transcript contents := by
  have source : (options.withVerbosity verbosity).source = options.source := rfl
  unfold transcript
  rw [source]
  cases options.source with
  | terminal => rfl
  | expression text => rfl
  | file path =>
    cases contents with
    | bytes bytes => exact Transcript.ofLinesFrom_withVerbosity options verbosity 1 0 statusOk _
    | unreadable failure => rfl

/-! ## Records that are shown -/

namespace Event

/-- The record that an event is. -/
def record? : Event → Option Record
  | record entry => some entry
  | _ => none

variable {verbosity : UInt8} {entry : Record}

/-- A record that is shown is a line of the error output. -/
theorem error?_of_isShown (isShown : entry.isShown verbosity = true) :
    error? verbosity (record entry) = some entry.line :=
  if_pos isShown

/-- A record that is not shown is none. -/
theorem error?_of_not_isShown (hidden : entry.isShown verbosity = false) :
    error? verbosity (record entry) = none :=
  if_neg (Bool.eq_false_iff.mp hidden)

end Event

namespace Transcript

/-- The records of a session. -/
def records (transcript : Transcript) : List Record := transcript.events.filterMap Event.record?

/-- The records of a session that are shown at a verbosity. -/
def shown (verbosity : UInt8) (transcript : Transcript) : List Record :=
  transcript.records.filter (Record.isShown verbosity)

/-- The lines of the error output. -/
def errorLines (verbosity : UInt8) (transcript : Transcript) : List String :=
  transcript.events.filterMap (Event.error? verbosity)

/-- Of the events that are records the error output has the lines of those that are shown. -/
theorem filterMap_error?_records (verbosity : UInt8) (transcript : Transcript) :
    (transcript.events.filter fun event => event.record?.isSome).filterMap
        (Event.error? verbosity) =
      (transcript.shown verbosity).map Record.line := by
  rw [shown, records]
  induction transcript.events with
  | nil => rfl
  | cons event events ih =>
    cases event with
    | result text => exact ih
    | report text => exact ih
    | record entry =>
      have first : (Event.record entry :: events).filterMap Event.record? =
          entry :: events.filterMap Event.record? := rfl
      rw [first, List.filter_cons_of_pos rfl]
      cases isShown : entry.isShown verbosity with
      | false =>
        rw [List.filterMap_cons_none (Event.error?_of_not_isShown isShown), ih,
          List.filter_cons_of_neg (Bool.eq_false_iff.mp isShown)]
      | true =>
        rw [List.filterMap_cons_some (Event.error?_of_isShown isShown), ih,
          List.filter_cons_of_pos isShown, List.map_cons]

end Transcript

/-- A record that is shown is shown at every higher verbosity. -/
theorem Record.isShown_mono {verbosity verbosity' : UInt8} (le : verbosity ≤ verbosity')
    {record : Record} (isShown : record.isShown verbosity = true) :
    record.isShown verbosity' = true := by
  have low : record.level.rank ≤ verbosity.toNat := of_decide_eq_true isShown
  exact decide_eq_true (Nat.le_trans low (UInt8.le_iff_toNat_le.mp le))

/-- From a verbosity of four on every record is shown. -/
theorem Record.isShown_of_four_le {verbosity : UInt8} (four : 4 ≤ verbosity) (record : Record) :
    record.isShown verbosity = true := by
  have highest : record.level.rank ≤ 4 := by
    cases record.level <;> decide
  exact decide_eq_true (Nat.le_trans highest (UInt8.le_iff_toNat_le.mp four))

namespace Transcript

variable {verbosity verbosity' : UInt8} (transcript : Transcript)

/-- The records shown at a verbosity are those of a higher one that it allows. -/
theorem shown_eq_filter (le : verbosity ≤ verbosity') :
    transcript.shown verbosity =
      (transcript.shown verbosity').filter (Record.isShown verbosity) := by
  rw [shown, shown, List.filter_filter]
  refine List.filter_congr fun record _ => ?_
  cases isShown : record.isShown verbosity with
  | false => rfl
  | true => rw [Record.isShown_mono le isShown, Bool.true_and]

/-- The records shown at a verbosity are a sublist of those shown at a higher one. -/
theorem shown_sublist (le : verbosity ≤ verbosity') :
    (transcript.shown verbosity).Sublist (transcript.shown verbosity') := by
  rw [transcript.shown_eq_filter le]
  exact List.filter_sublist

/-- From a verbosity of four on all records are shown. -/
theorem shown_of_four_le (four : 4 ≤ verbosity) :
    transcript.shown verbosity = transcript.records :=
  List.filter_eq_self.mpr fun record _ => record.isShown_of_four_le four

/-- The lines of the error output are a sublist of those at a higher verbosity. -/
theorem errorLines_sublist (le : verbosity ≤ verbosity') :
    (transcript.errorLines verbosity).Sublist (transcript.errorLines verbosity') := by
  rw [errorLines, errorLines]
  induction transcript.events with
  | nil => exact .slnil
  | cons event events ih =>
    cases event with
    | result text => exact ih
    | report text => exact ih.cons_cons text
    | record entry =>
      cases isShown : entry.isShown verbosity with
      | false =>
        -- At the higher verbosity the record may be a line of its own, or it is hidden as well.
        rw [List.filterMap_cons_none (Event.error?_of_not_isShown isShown)]
        exact ih.trans ((List.sublist_cons_self _ _).filterMap _)
      | true =>
        have isShown' := Record.isShown_mono le isShown
        rw [List.filterMap_cons_some (Event.error?_of_isShown isShown),
          List.filterMap_cons_some (Event.error?_of_isShown isShown')]
        exact ih.cons_cons entry.line

end Transcript

/-! ## Answers -/

/-- Arguments that are read with a number of occurrences ask for a calculation whose verbosity is
the number in eight bits. -/
theorem Request.ofArguments_of_verbose {arguments : List String} {notes : Notes} {count : Nat}
    (read : Notes.empty.read none arguments = .ok { notes with verbose := count })
    {options : Options} (accepted : notes.options? = some options) :
    ofArguments arguments = .calculate (options.withVerbosity (.ofNat count)) := by
  rw [ofArguments, read]
  dsimp only
  rw [Notes.options?_verbose, accepted]
  rfl

/-- The answer at a verbosity is what is printed of the one session of the options. -/
theorem Request.respond_withVerbosity (options : Options) (verbosity : UInt8)
    (contents : FileContents) :
    (calculate (options.withVerbosity verbosity)).respond contents =
      (options.transcript contents).response verbosity := by
  rw [respond, Options.transcript_withVerbosity]
  rfl

/-- In eight bits numbers compare as what they leave behind multiples of 256. -/
theorem ofNat_le_ofNat_iff {n m : Nat} :
    UInt8.ofNat n ≤ UInt8.ofNat m ↔ n % 256 ≤ m % 256 := by
  rw [UInt8.le_iff_toNat_le, UInt8.toNat_ofNat', UInt8.toNat_ofNat']

/-- Options that differ only in how often more output is asked for have the same output and the same
status.  What they show of the records is decided by what the two numbers leave behind multiples of
256.  Where this is not less for the second number, the records shown for the first are among those
shown for the second, in the same order, and so are all lines of the error output; and if it is four
or more, all records are shown. -/
theorem more_verbosity_shows_more (options : Options) (contents : FileContents) (n m : Nat) :
    let transcript := options.transcript contents
    let response (count : Nat) :=
      (Request.calculate (options.withVerbosity (.ofNat count))).respond contents
    (response m).output = (response n).output ∧ (response m).status = (response n).status ∧
      (∀ count, (response count).errors = joinLines (transcript.errorLines (.ofNat count))) ∧
      (∀ verbosity,
        (transcript.events.filter fun event => event.record?.isSome).filterMap
            (Event.error? verbosity) =
          (transcript.shown verbosity).map Record.line) ∧
      (n % 256 ≤ m % 256 →
        (transcript.shown (.ofNat n)).Sublist (transcript.shown (.ofNat m)) ∧
        (transcript.errorLines (.ofNat n)).Sublist (transcript.errorLines (.ofNat m))) ∧
      (4 ≤ m % 256 → transcript.shown (.ofNat m) = transcript.records) := by
  intro transcript response
  have answer (count : Nat) : response count = transcript.response (.ofNat count) :=
    Request.respond_withVerbosity options (.ofNat count) contents
  refine ⟨?_, ?_, fun count => congrArg Response.errors (answer count),
    fun verbosity => transcript.filterMap_error?_records verbosity, ?_, ?_⟩
  · rw [answer m, answer n]
    rfl
  · rw [answer m, answer n]
    rfl
  · intro le
    have higher := ofNat_le_ofNat_iff.mpr le
    exact ⟨transcript.shown_sublist higher, transcript.errorLines_sublist higher⟩
  · intro four
    exact transcript.shown_of_four_le (ofNat_le_ofNat_iff.mpr four)

/-- The expression {lit}`1/x` with three occurrences in one argument, and with 260 in as many. -/
theorem verbosity_of_reciprocal :
    let options : Options := ⟨.expression "1/x", "x", "y", 0, 0, false, none, .standard, 0⟩
    let transcript := options.transcript (.bytes [])
    let response := (Request.ofArguments ["-vvv", "1/x"]).respond (.bytes [])
    let response' := (Request.ofArguments (List.replicate 260 "-v" ++ ["1/x"])).respond (.bytes [])
    response'.output = response.output ∧ response'.status = response.status ∧
      response.errors = joinLines (transcript.errorLines 3) ∧
      response'.errors = joinLines (transcript.errorLines 4) ∧
      (transcript.shown 3).Sublist (transcript.shown 4) ∧
      transcript.shown 4 = transcript.records := by
  intro options transcript response response'
  let notes : Notes := ⟨some "1/x", [], 0, 0⟩
  have accepted : notes.options? = some options := rfl
  have read : Notes.empty.read none ["-vvv", "1/x"] = .ok { notes with verbose := 3 } := rfl
  have read' : Notes.empty.read none (List.replicate 260 "-v" ++ ["1/x"]) =
      .ok { notes with verbose := 260 } :=
    (Notes.read_replicate_verbose 260 ["1/x"]).trans rfl
  have answer : response = (Request.calculate (options.withVerbosity 3)).respond (.bytes []) :=
    congrArg (Request.respond (.bytes [])) (Request.ofArguments_of_verbose read accepted)
  have answer' : response' = (Request.calculate (options.withVerbosity 4)).respond (.bytes []) :=
    congrArg (Request.respond (.bytes [])) (Request.ofArguments_of_verbose read' accepted)
  obtain ⟨output, status, errors, _, more, all⟩ :=
    more_verbosity_shows_more options (.bytes []) 3 260
  rw [answer, answer']
  exact ⟨output, status, errors 3, errors 260, (more (by decide)).1, all (by decide)⟩

/-- With four occurrences three records of the expression {lit}`2` are shown, and with 256 none. -/
theorem verbosity_wraps_around :
    let options : Options := ⟨.expression "2", "x", "y", 0, 0, false, none, .standard, 0⟩
    let transcript := options.transcript (.bytes [])
    let errors (count : Nat) :=
      ((Request.ofArguments (List.replicate count "-v" ++ ["2"])).respond (.bytes [])).errors
    4 ≤ 256 ∧
      errors 4 = joinLines (transcript.errorLines (.ofNat 4)) ∧
      errors 256 = joinLines (transcript.errorLines (.ofNat 256)) ∧
      transcript.errorLines (.ofNat 4) =
        ["[TRACE parseval::lang::lex] #0 at 0..1",
          "[DEBUG parseval::lang::parse] \"2\" => LOADCONST(2)",
          "[TRACE parseval::mach::runtime]   0 LOADCONST []"] ∧
      transcript.errorLines (.ofNat 256) = [] ∧
      ¬ (transcript.shown (.ofNat 4)).Sublist (transcript.shown (.ofNat 256)) := by
  intro options transcript errors
  let notes : Notes := ⟨some "2", [], 0, 0⟩
  have accepted : notes.options? = some options := rfl
  have answer (count : Nat) :
      errors count = joinLines (transcript.errorLines (.ofNat count)) := by
    have read : Notes.empty.read none (List.replicate count "-v" ++ ["2"]) =
        .ok { notes with verbose := 0 + count } :=
      (Notes.read_replicate_verbose count ["2"]).trans rfl
    rw [Nat.zero_add] at read
    have asked := Request.ofArguments_of_verbose read accepted
    exact congrArg Response.errors ((congrArg (Request.respond (.bytes [])) asked).trans
      (Request.respond_withVerbosity options (.ofNat count) (.bytes [])))
  have three : (transcript.shown (.ofNat 4)).length = 3 := by decide +kernel
  have none : transcript.shown (.ofNat 256) = [] :=
    List.filter_eq_nil_iff.mpr fun record _ => Bool.eq_false_iff.mp record.isShown_zero
  refine ⟨by decide, answer 4, answer 256, by decide +kernel, by decide +kernel, ?_⟩
  intro sublist
  rw [none, List.sublist_nil] at sublist
  rw [sublist] at three
  cases three

end TapeCalc
