import TapeCalc.Proofs.Compiler.Acceptance

/-!
# Places and details are set once

A fault is made without a place and without a detail, and either is added later by whoever knows it.
A setter that finds one there already would overwrite it.

That this never happens is said with setters of any kind.  They have to do what they are meant for on
faults where nothing is set yet, and on others they may do anything, so they may well tell the
difference.  Still a compilation with such setters is the same, so its faults never get to a setter
twice.

Main definitions:

- {lit}`Setters`: ways of adding a place and a detail to a fault.
- {lit}`Setters.Fair`: setters that are right where nothing is set yet.
- {lit}`Setters.checking`: setters that refuse to overwrite.
- {lit}`Setters.compile`: a compilation with setters.

Main results:

- Theorem {lit}`Setters.Fair.feed_eq`: the steps of a compilation.
- Theorem {lit}`Setters.Fair.compile_eq`: all of a compilation, binding the names included.
-/

namespace TapeCalc

/-- Ways of adding a place and a detail to a fault. -/
structure Setters where
  point : Fault → Span → Fault
  tell : Fault → String → Fault

namespace Setters

/-! ## Compiling with setters -/

/-- Setters that are right on faults without a place and on faults without a detail. -/
structure Fair (set : Setters) : Prop where
  point {fault : Fault} (column : Span) (free : fault.column = .nowhere) :
    set.point fault column = fault.inColumn column
  tell {fault : Fault} (detail : String) (free : fault.detail = "") :
    set.tell fault detail = fault.withDetail detail

/-- Setters that do not overwrite anything: what is there already is reported as a fault of the
calculator itself. -/
def checking : Setters where
  point fault column :=
    if fault.column = .nowhere then fault.inColumn column else .broken "PLACE IS SET"
  tell fault detail := if fault.detail = "" then fault.withDetail detail else .broken "DETAIL IS SET"

/-- Setters that do not overwrite anything are fair. -/
theorem fair_checking : checking.Fair := ⟨fun _ free => if_pos free, fun _ free => if_pos free⟩

variable (set : Setters)

/-- A fault of the calculator itself. -/
def broken (detail : String) : Fault := set.tell (.plain .internalError) detail

/-- A fault at a place, with or without a detail. -/
def found (code : FaultCode) (column : Span) : String → Fault
  | "" => set.point (.plain code) column
  | detail => set.tell (set.point (.plain code) column) detail

/-- Bind a name to the variable an instruction reads. -/
def bind (table : SymbolTable) (name : String) (opcode : Opcode) : Except Fault SymbolTable :=
  if name.toList.isEmpty then .error (set.broken "EMPTY VARIABLE NAME")
  else
    match opcode with
    | .load slot =>
      if table.isBound slot then
        .error (set.tell (.plain .symbolTableFull) "VARIABLE SLOT IN USE")
      else if table.symbols.any fun symbol => sameSpelling symbol.spelling name.toList then
        .error (.plain .duplicateSymbol)
      else .ok ⟨table.bindings ++ [⟨name.toList, slot⟩]⟩
    | _ => .error (set.broken "NOT A VARIABLE OPCODE")

/-- The table for the names of a compilation. -/
def ofNames (xName yName : String) : Except Fault SymbolTable := do
  let table ← if xName.isEmpty then pure .empty else set.bind .empty xName (.load .x)
  if yName.isEmpty then pure table else set.bind table yName (.load .y)

/-- Pass over blanks and comments. -/
def skip : Action Lexer Unit := fun lexer =>
  let gap := Gap.scan lexer.position none lexer.rest
  let after := { lexer with rest := gap.rest, position := gap.position }
  match gap.openedAt with
  | none => .ok () after
  | some start =>
    let column := ⟨start, gap.position⟩
    .error (set.point (.plain .unterminatedComment) column) { after with column }

/-- Keep the value of a literal. -/
def store (value : Float) : Action Lexer Nat :=
  Action.mapFault (fun lexer fault => set.point fault lexer.column)
    (Action.onPart Lexer.pool (fun lexer pool => { lexer with pool }) (Pool.store value))

/-- Read a literal. -/
def literal : Action Lexer Token := do
  let lexer ← get
  let run := (Literal.run lexer.rest).1
  let after := lexer.advance run.length
  MonadState.set after
  match Literal.value? run with
  | some value => return .constant (← set.store value)
  | none => throw (set.point (.plain .badNumberFormat) after.column)

/-- Read the next lexeme, or nothing at the end of the text. -/
def next (symbols : SymbolTable) : Action Lexer (Option Token) := do
  set.skip
  let lexer ← get
  match symbols.lookup lexer.rest with
  | some (length, token) =>
    MonadState.set (lexer.advance length)
    return some token
  | none =>
    match lexer.rest with
    | [] =>
      MonadState.set (lexer.advance 0)
      return none
    | c :: _ =>
      if Literal.opens c then return some (← set.literal)
      else
        let column := ⟨lexer.position, lexer.position + 1⟩
        MonadState.set { lexer with column }
        throw (set.point (.plain .notRecognisable) column)

/-- Look at the next lexeme. -/
def advance (symbols : SymbolTable) : Action Compiler Unit := do
  let token? ← Action.onPart Compiler.lexer (fun compiler lexer => { compiler with lexer })
    (set.next symbols)
  modify fun compiler =>
    { compiler with
      current := token?
      lexemes :=
        match token? with
        | none => compiler.lexemes
        | some token => ⟨token, compiler.lexer.column⟩ :: compiler.lexemes }

/-- Run a step on the tape. -/
def onTape (step : Action Tape Unit) : Action Compiler Unit :=
  Action.mapFault (fun compiler fault => set.point fault compiler.lexer.column)
    (Action.onPart Compiler.tape (fun compiler tape => { compiler with tape }) step)

/-- The steps of a compilation. -/
def feed (symbols : SymbolTable) : Feed Compiler :=
  { current := Compiler.current
    column := fun compiler => compiler.lexer.column
    advance := set.advance symbols
    plant := fun opcode => set.onTape (Tape.plant opcode)
    plantConstant := fun index => set.onTape (Tape.plantConstant index) }

/-- The program of a text, or what is wrong with it. -/
def compile (text xName yName : String) (limits : Limits) : Except Fault Program :=
  match set.ofNames xName yName with
  | .error fault => .error fault
  | .ok symbols =>
    match Descent.whole (set.feed symbols) (text.toList.length + 1) limits.maxDepth
      (.start text.toList limits) with
    | .ok () reached => .ok reached.program
    | .error fault _ => .error fault

/-! ## The same compilation -/

namespace Fair

variable {set : Setters} (fair : set.Fair)
include fair

/-- A fault of the calculator itself is made without a detail. -/
theorem broken_eq (detail : String) : set.broken detail = .broken detail :=
  fair.tell detail rfl

/-- A new fault that is given a place. -/
theorem point_plain (code : FaultCode) (column : Span) :
    set.point (.plain code) column = (Fault.plain code).inColumn column := fair.point column rfl

/-- A new fault that is given a detail. -/
theorem tell_plain (code : FaultCode) (detail : String) :
    set.tell (.plain code) detail = (Fault.plain code).withDetail detail := fair.tell detail rfl

/-- A fault at a place is made without a place and without a detail. -/
theorem found_eq (code : FaultCode) (column : Span) (detail : String) :
    set.found code column detail = ⟨code, column, detail⟩ := by
  have pointed := fair.point_plain code column
  unfold found
  split
  · exact pointed
  · rw [pointed]
    exact fair.tell detail rfl

/-- Where a descent fails by itself, the fault is a new one. -/
theorem fail_eq {σ : Type} (feed : Feed σ) (code : FaultCode) (detail : String) (state : σ) :
    Descent.fail feed code detail state =
      .error (set.found code (feed.column state) detail) state := by
  rw [fair.found_eq]
  rfl

/-! ## Binding names -/

/-- Binding a name. -/
theorem bind_eq (table : SymbolTable) (name : String) (opcode : Opcode) :
    set.bind table name opcode = table.bind name opcode := by
  simp only [bind, fair.broken_eq, fair.tell_plain]
  rfl

/-- Binding the names of a compilation. -/
theorem ofNames_eq (xName yName : String) :
    set.ofNames xName yName = SymbolTable.ofNames xName yName := by
  simp only [ofNames, SymbolTable.ofNames, fair.bind_eq]

/-! ## Reading lexemes -/

/-- Passing over a gap. -/
theorem skip_eq : set.skip = Lexer.skip := by
  funext lexer
  simp only [skip, fair.point_plain]
  rfl

/-- Keeping the value of a literal: a full pool reports a new fault. -/
theorem store_eq (value : Float) : set.store value = Lexer.store value := by
  funext lexer
  simp only [store, Lexer.store, Action.mapFault, Action.onPart]
  cases stored : Pool.store value lexer.pool with
  | ok index pool => rfl
  | error fault pool =>
    obtain ⟨_, rfl, _⟩ := Pool.store_error stored
    simp only [fair.point_plain]

/-- Reading a literal. -/
theorem literal_eq : set.literal = Lexer.literal := by
  simp only [literal, fair.store_eq, fair.point_plain]
  rfl

/-- Reading the next lexeme. -/
theorem next_eq (symbols : SymbolTable) : set.next symbols = Lexer.next symbols := by
  simp only [next, fair.skip_eq, fair.literal_eq, fair.point_plain]
  rfl

/-! ## Compiling -/

/-- Looking at the next lexeme. -/
theorem advance_eq (symbols : SymbolTable) : set.advance symbols = Compiler.advance symbols := by
  rw [advance, fair.next_eq]
  rfl

/-- A step on the tape that only reports new faults. -/
theorem onTape_eq {step : Action Tape Unit}
    (free : ∀ tape fault after, step tape = .error fault after → fault.column = .nowhere) :
    set.onTape step = Compiler.onTape step := by
  funext compiler
  simp only [onTape, Compiler.onTape, Action.mapFault, Action.onPart]
  cases stepped : step compiler.tape with
  | ok _ tape => rfl
  | error fault tape => simp only [fair.point _ (free _ _ _ stepped)]

/-- The steps of a compilation. -/
theorem feed_eq (symbols : SymbolTable) : set.feed symbols = Compiler.feed symbols := by
  have plant (opcode : Opcode) :
      set.onTape (Tape.plant opcode) = Compiler.onTape (Tape.plant opcode) := by
    refine fair.onTape_eq fun tape fault after failed => ?_
    rw [(Tape.plant_error failed).2]
    rfl
  have plantConstant (index : Nat) :
      set.onTape (Tape.plantConstant index) = Compiler.onTape (Tape.plantConstant index) := by
    refine fair.onTape_eq fun tape fault after failed => ?_
    rcases Tape.plantConstant_error failed with ⟨_, rfl⟩ | ⟨_, rfl⟩ <;> rfl
  simp only [feed, Compiler.feed, fair.advance_eq, plant, plantConstant]

/-- All of a compilation, binding the names included. -/
theorem compile_eq (text xName yName : String) (limits : Limits) :
    set.compile text xName yName limits = TapeCalc.compile text xName yName limits := by
  rw [compile, fair.ofNames_eq, TapeCalc.compile, compilation]
  cases SymbolTable.ofNames xName yName with
  | error fault => rfl
  | ok symbols =>
    have outcome := outcome_compileWith symbols text.toList limits
    dsimp only
    rw [fair.feed_eq]
    exact outcome.symm

end Fair

end Setters

end TapeCalc
