import TapeCalc.Decimal.Reader
import TapeCalc.Limits

/-!
# The options of the command line

Arguments are options, or the one expression to evaluate.  An option is written in its
long form, or as one letter of a group; its value follows as the next argument, after an
equals sign, or directly behind its letter.  Everything behind {lit}`--` is an expression.

Reading goes from left to right and notes which settings occur with which values.  A
fault found on the way, and a request for help or for the version, end it there.  What
the noted values mean is settled in the end.

Which options there are, and what they are by default, is for the calculator to say.  How
they are told apart among the arguments is not: {lit}`Notes.read`, {lit}`Notes.options?` and
{lit}`Request.ofArguments` stand for the library that reads them, structopt.

Main definitions:

- {lit}`Options`: what a calculation is asked for.
- {lit}`Request.ofArguments`: the request that a list of arguments makes.
-/

namespace TapeCalc

/-! ## Names of options -/

/-- Options that stand alone. -/
inductive Switch where
  | listing
  | verbose
  | help
  | version
deriving DecidableEq, Inhabited

/-- Options that take a value. -/
inductive Setting where
  | file
  | xName
  | yName
  | xValue
  | yValue
  | precision
  | maxCodeLen
  | maxConstants
  | maxDepth
deriving DecidableEq, Inhabited

namespace Switch

/-- The switch with a long name. -/
def ofLong? : String → Option Switch
  | "listing" => some listing
  | "help" => some help
  | "version" => some version
  | _ => none

/-- The switch with a letter. -/
def ofLetter? : Char → Option Switch
  | 'v' => some verbose
  | 'h' => some help
  | 'V' => some version
  | _ => none

end Switch

namespace Setting

/-- The setting with a long name. -/
def ofLong? : String → Option Setting
  | "file" => some file
  | "x-name" => some xName
  | "y-name" => some yName
  | "x-value" => some xValue
  | "y-value" => some yValue
  | "precision" => some precision
  | "max-code-len" => some maxCodeLen
  | "max-constants" => some maxConstants
  | "max-depth" => some maxDepth
  | _ => none

/-- The setting with a letter. -/
def ofLetter? : Char → Option Setting
  | 'f' => some file
  | 'x' => some xValue
  | 'y' => some yValue
  | _ => none

/-- Whether the next argument is the value of a setting.  Values of variables may be
negative, so anything goes; for the others an argument with a dash is the next option,
except a dash alone. -/
def takes (setting : Setting) (argument : List Char) : Bool :=
  match setting with
  | xValue => true
  | yValue => true
  | _ =>
    match argument with
    | '-' :: _ :: _ => false
    | _ => true

end Setting

/-! ## Notes -/

/-- What the reader of arguments has found. -/
structure Notes where
  expression : Option String
  /-- The settings that occur, each with its value if it has one. -/
  values : List (Setting × Option String)
  listings : Nat
  verbose : Nat

namespace Notes

/-- Nothing has been read. -/
def empty : Notes := ⟨none, [], 0, 0⟩

/-- A setting occurs. -/
def note (notes : Notes) (setting : Setting) (value? : Option String) : Notes :=
  { notes with values := notes.values ++ [(setting, value?)] }

/-- The setting that waits for a value does not get one. -/
def settle (notes : Notes) : Option Setting → Notes
  | none => notes
  | some setting => notes.note setting none

end Notes

/-- Why reading the arguments ends early. -/
inductive Stop where
  | rejected
  | help
  | version
deriving DecidableEq, Inhabited

/-- What has been read, and the setting whose value is expected next. -/
abbrev Reading := Except Stop (Notes × Option Setting)

namespace Notes

/-- A switch occurs. -/
def switch (notes : Notes) : Switch → Except Stop Notes
  | .listing => .ok { notes with listings := notes.listings + 1 }
  | .verbose => .ok { notes with verbose := notes.verbose + 1 }
  | .help => .error .help
  | .version => .error .version

/-- An expression occurs; there must be one at most. -/
def argument (notes : Notes) (text : String) : Except Stop Notes :=
  match notes.expression with
  | none => .ok { notes with expression := some text }
  | some _ => .error .rejected

/-- A setting occurs with a value of its own; equals signs in front of it are left out. -/
def attached (notes : Notes) (setting : Setting) (value : List Char) : Notes :=
  notes.note setting (some (String.ofList (value.dropWhile (· == '='))))

/-- A long option occurs, without its dashes. -/
def long (notes : Notes) (body : List Char) : Reading := do
  let name := String.ofList (body.takeWhile (· != '='))
  match Setting.ofLong? name, body.dropWhile (· != '=') with
  | some setting, [] => return (notes, some setting)
  | some setting, value => return (notes.attached setting value, none)
  | none, _ =>
    match Switch.ofLong? name with
    | some switch => return (← notes.switch switch, none)
    | none => throw .rejected

/-- A group of letters occurs.  A setting takes the rest of the group as its value. -/
def letters (notes : Notes) : List Char → Reading
  | [] => return (notes, none)
  | letter :: rest =>
    match Setting.ofLetter? letter with
    | some setting =>
      match rest with
      | [] => return (notes, some setting)
      | value => return (notes.attached setting value, none)
    | none =>
      match Switch.ofLetter? letter with
      | some switch => do letters (← notes.switch switch) rest
      | none => throw .rejected

/-- One argument that is not the value of the setting before it. -/
def option (notes : Notes) (text : String) : Reading :=
  match text.toList with
  | '-' :: '-' :: body => notes.long (body.dropWhile (· == '-'))
  | '-' :: letter :: rest => notes.letters (letter :: rest)
  | _ => return (← notes.argument text, none)

/-- Read arguments while a setting may wait for its value. -/
def read (notes : Notes) (waiting : Option Setting) : List String → Except Stop Notes
  | [] => return notes.settle waiting
  | text :: rest =>
    match waiting.filter fun setting => setting.takes text.toList with
    | some setting => read (notes.note setting (some text)) none rest
    | none =>
      if text = "--" then rest.foldlM argument (notes.settle waiting)
      else do
        let (notes, waiting) ← (notes.settle waiting).option text
        read notes waiting rest

end Notes

/-! ## Options -/

/-- Where the expressions come from. -/
inductive Source where
  | expression (text : String)
  | file (path : String)
  | terminal
deriving DecidableEq, Inhabited

/-- What a calculation is asked for. -/
structure Options where
  source : Source
  xName : String
  yName : String
  x : Float
  y : Float
  /-- Whether the tape is shown before each result. -/
  listing : Bool
  /-- How many places results are rounded to, if they are. -/
  precision : Option Nat
  limits : Limits
  /-- How often more output was asked for, kept in eight bits. -/
  verbosity : UInt8

/-- The largest number a setting may have. -/
def maxNatural : Nat := 0xFFFFFFFFFFFFFFFF

/-- A number without sign, or with a plus sign. -/
def natural? (text : List Char) : Option Nat :=
  let digits :=
    match text with
    | '+' :: digits => digits
    | digits => digits
  if digits.isEmpty || !digits.all isDigit || maxNatural < digitsValue digits then none
  else some (digitsValue digits)

namespace Notes

/-- The value of a setting that occurs once at most.  The outer answer is missing if the
setting occurs more often, or without a value and there is no default. -/
def value? (notes : Notes) (setting : Setting) (default : Option String) :
    Option (Option String) :=
  match notes.values.filter fun entry => entry.1 = setting with
  | [] => some default
  | [(_, some value)] => some (some value)
  | [(_, none)] => default.map some
  | _ => none

/-- The value of a setting that has a default. -/
def text? (notes : Notes) (setting : Setting) (default : String) : Option String :=
  (notes.value? setting (some default)).map fun value => value.getD default

/-- The value of a setting that is a double, zero by default. -/
def double? (notes : Notes) (setting : Setting) : Option Float := do
  FloatText.read? (← notes.text? setting "0").toList

/-- The value of a setting that is a number and may be left out. -/
def number? (notes : Notes) (setting : Setting) : Option (Option Nat) := do
  match ← notes.value? setting none with
  | none => return none
  | some text => return some (← natural? text.toList)

/-- Where the expressions come from; an expression and a file exclude each other. -/
def source? (notes : Notes) : Option Source := do
  match notes.expression, ← notes.value? .file none with
  | none, none => return .terminal
  | some text, none => return .expression text
  | none, some path => return .file path
  | some _, some _ => none

/-- The limits, with the standard ones for those left out. -/
def limits? (notes : Notes) : Option Limits := do
  return ⟨(← notes.number? .maxCodeLen).getD Limits.standard.maxCodeLen,
    (← notes.number? .maxConstants).getD Limits.standard.maxConstants,
    (← notes.number? .maxDepth).getD Limits.standard.maxDepth⟩

/-- The options that the notes make, if every value means something. -/
def options? (notes : Notes) : Option Options := do
  if 1 < notes.listings then none
  else
    return {
      source := ← notes.source?
      xName := ← notes.text? .xName "x"
      yName := ← notes.text? .yName "y"
      x := ← notes.double? .xValue
      y := ← notes.double? .yValue
      listing := notes.listings = 1
      precision := ← notes.number? .precision
      limits := ← notes.limits?
      verbosity := UInt8.ofNat notes.verbose }

end Notes

/-! ## Requests -/

/-- What a list of arguments asks for. -/
inductive Request where
  | rejected
  | help
  | version
  | calculate (options : Options)

/-- The request that a list of arguments makes, as the reader of arguments has it. -/
def Request.ofArguments (arguments : List String) : Request :=
  match Notes.empty.read none arguments with
  | .error .rejected => .rejected
  | .error .help => .help
  | .error .version => .version
  | .ok notes =>
    match notes.options? with
    | some options => .calculate options
    | none => .rejected

end TapeCalc
