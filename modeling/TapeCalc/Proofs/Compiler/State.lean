import TapeCalc.Compiler.Basic
import TapeCalc.Proofs.Descent.Completeness
import TapeCalc.Proofs.Lexer.Reading
import TapeCalc.Proofs.Program.Tape

/-!
# The state of a compilation

A compilation hands out the lexemes of its text one after the other, and it plants words
on a tape that keeps its capacity.  Planting does not touch the lexer, and looking at the
next lexeme does not touch the tape.

Main definitions:

- {lit}`Compiler.Looking`: the lexemes a compilation still has in front of it.

Main results:

- Theorem {lit}`Compiler.couples_onTape_of`: steps on the tapes of two compilations.
- Theorem {lit}`Compiler.steady`: planting leaves all that is ahead.
- Theorem {lit}`Compiler.looking_of_trace`: the lexemes a descent has gone past are those
  of the text.
- Theorem {lit}`Compiler.tape_of_trace`: the words a descent has planted are on the tape.
-/

namespace TapeCalc

namespace Compiler

variable {symbols : SymbolTable}

/-! ## Steps of a compilation -/

/-- Looking at the next lexeme is asking the lexer for it. -/
theorem advance_eq (symbols : SymbolTable) (state : Compiler) :
    advance symbols state =
      match Lexer.next symbols state.lexer with
      | .error fault lexer => .error fault { state with lexer }
      | .ok none lexer => .ok () { state with lexer, current := none }
      | .ok (some token) lexer =>
        .ok () { state with lexer, current := some token,
                            lexemes := ⟨token, lexer.column⟩ :: state.lexemes } := by
  simp only [advance]
  cases result : Lexer.next symbols state.lexer with
  | error fault lexer =>
    refine Action.bind_of_error ?_
    simp only [Action.onPart, result]
  | ok token? lexer =>
    have stepped : Action.onPart Compiler.lexer (fun compiler lexer => { compiler with lexer })
        (Lexer.next symbols) state = .ok token? { state with lexer } := by
      simp only [Action.onPart, result]
    rw [Action.bind_of_ok stepped]
    cases token? <;> rfl

/-- A step on the tape leaves everything else, and its faults point at the lexeme that is looked
at. -/
theorem onTape_eq (step : Action Tape Unit) (state : Compiler) :
    onTape step state =
      match step state.tape with
      | .ok () tape => .ok () { state with tape }
      | .error fault tape => .error (fault.inColumn state.lexer.column) { state with tape } := by
  simp only [onTape, Action.mapFault, Action.onPart]
  cases step state.tape <;> rfl

/-- A step on the tape that succeeds. -/
theorem onTape_ok {step : Action Tape Unit} {before after : Compiler}
    (h : onTape step before = .ok () after) :
    ∃ tape, step before.tape = .ok () tape ∧ after = { before with tape } := by
  rw [onTape_eq] at h
  split at h
  · rename_i tape stepped
    cases h
    exact ⟨tape, stepped, rfl⟩
  · cases h

/-- A step on the tape that fails. -/
theorem onTape_error {step : Action Tape Unit} {before after : Compiler} {fault : Fault}
    (h : onTape step before = .error fault after) :
    ∃ cause tape, step before.tape = .error cause tape ∧ fault.code = cause.code := by
  rw [onTape_eq] at h
  split at h
  · cases h
  · rename_i cause tape stepped
    cases h
    exact ⟨cause, tape, stepped, rfl⟩

/-- Steps on the tapes of two compilations whose lexemes have one range belong together if the steps
do. -/
theorem couples_onTape_of {related : Compiler → Compiler → Prop} {tapes : Tape → Tape → Prop}
    {cut cut' : Fault → Prop} {step step' : Action Tape Unit} {left right : Compiler}
    (column : right.lexer.column = left.lexer.column)
    (steps : Action.Couples tapes cut (step left.tape) (step' right.tape))
    (states : ∀ tape tape', tapes tape tape' →
      related { left with tape } { right with tape := tape' })
    (cutOff : ∀ fault, cut fault → cut' (fault.inColumn left.lexer.column)) :
    Action.Couples related cut' (onTape step left) (onTape step' right) := by
  rw [onTape_eq, onTape_eq, column]
  cases result : step left.tape with
  | ok _ tape =>
    rw [result] at steps
    obtain ⟨tape', result', tapes⟩ := steps.of_ok
    rw [result']
    exact .ok (states tape tape' tapes)
  | error fault tape =>
    rw [result] at steps
    rcases steps.of_error with cut | ⟨tape', result'⟩
    · exact .cut (cutOff fault cut)
    · rw [result']
      exact .fault

/-- Planting leaves the lexeme that is looked at. -/
theorem lawful (symbols : SymbolTable) : (feed symbols).Lawful := by
  constructor
  · intro opcode before after planted
    obtain ⟨tape, _, rfl⟩ := onTape_ok planted
    rfl
  · intro index before after planted
    obtain ⟨tape, _, rfl⟩ := onTape_ok planted
    rfl

/-! ## The lexemes ahead -/

/-- The lexemes a compilation has in front of it, the one that is looked at first, and the lexer
that is left behind them. -/
def Looking (symbols : SymbolTable) (state : Compiler) : List Lexeme → Lexer → Prop
  | [], last => state.current = none ∧ state.lexer = last
  | lexeme :: lexemes, last => state.current = some lexeme.token ∧
      state.lexer.column = lexeme.column ∧ Lexer.Yields symbols state.lexer lexemes last

/-- Looking at the first of the lexemes the lexer yields. -/
theorem looking_of_yields (before : Compiler) {lexemes : List Lexeme} {last : Lexer}
    (h : Lexer.Yields symbols before.lexer lexemes last) :
    ∃ after, advance symbols before = .ok () after ∧ after.tape = before.tape ∧
      Looking symbols after lexemes last := by
  rw [advance_eq]
  cases h with
  | finished ended =>
    rw [ended]
    exact ⟨_, rfl, rfl, rfl, rfl⟩
  | lexeme taken rest =>
    rw [taken]
    exact ⟨_, rfl, rfl, rfl, rfl, rest⟩

/-- What is looked at has been yielded by the lexer. -/
theorem yields_of_looking {before after : Compiler} {lexemes : List Lexeme} {last : Lexer}
    (moved : advance symbols before = .ok () after) (h : Looking symbols after lexemes last) :
    Lexer.Yields symbols before.lexer lexemes last := by
  rw [advance_eq] at moved
  split at moved
  · cases moved
  · rename_i lexer ended
    cases moved
    cases lexemes with
    | nil =>
      obtain ⟨_, rfl⟩ := h
      exact .finished ended
    | cons lexeme lexemes => cases h.1
  · rename_i token lexer taken
    cases moved
    cases lexemes with
    | nil => cases h.1
    | cons lexeme lexemes =>
      obtain ⟨same, place, rest⟩ := h
      rcases lexeme with ⟨_, column⟩
      cases same
      change lexer.column = column at place
      subst place
      exact .lexeme taken rest

/-- Looking depends on the lexer and the lexeme that is looked at only. -/
theorem Looking.congr {before after : Compiler} {lexemes : List Lexeme} {last : Lexer}
    (h : Looking symbols before lexemes last) (lexer : after.lexer = before.lexer)
    (current : after.current = before.current) : Looking symbols after lexemes last := by
  cases lexemes <;> simpa only [Looking, lexer, current] using h

/-- The tokens of the lexemes in front of a compilation are ahead of it. -/
theorem Looking.ahead {state : Compiler} {lexemes : List Lexeme} {last : Lexer}
    (h : Looking symbols state lexemes last) : (feed symbols).Ahead (tokensOf lexemes) state := by
  induction lexemes generalizing state with
  | nil => exact h.1
  | cons lexeme lexemes ih =>
    obtain ⟨current, _, rest⟩ := h
    obtain ⟨after, moved, _, further⟩ := looking_of_yields state rest
    exact ⟨current, after, moved, ih further⟩

/-- A descent that has come to the end has gone past the lexemes it was looking at. -/
theorem looking_of_trace {first last : Compiler} {tokens : List Token} {words : List Word}
    (trace : (feed symbols).Trace first tokens words last) (finished : last.current = none) :
    ∃ lexemes, tokensOf lexemes = tokens ∧ Looking symbols first lexemes last.lexer := by
  -- The lexemes are put together from the end, where there is nothing to look at.
  induction trace with
  | refl state => exact ⟨[], rfl, finished, rfl⟩
  | @advance before mid after token tokens words looking moved _ ih =>
    obtain ⟨lexemes, rfl, further⟩ := ih finished
    exact ⟨⟨token, before.lexer.column⟩ :: lexemes, rfl, looking, rfl,
      yields_of_looking moved further⟩
  | plant planted _ ih =>
    obtain ⟨lexemes, same, further⟩ := ih finished
    obtain ⟨tape, _, rfl⟩ := onTape_ok planted
    exact ⟨lexemes, same, further.congr rfl rfl⟩
  | plantConstant _ planted _ ih =>
    obtain ⟨lexemes, same, further⟩ := ih finished
    obtain ⟨tape, _, rfl⟩ := onTape_ok planted
    exact ⟨lexemes, same, further.congr rfl rfl⟩

/-- What is ahead depends on the lexer and the lexeme that is looked at only. -/
theorem ahead_congr {tokens : List Token} {before after : Compiler}
    (h : (feed symbols).Ahead tokens before) (lexer : after.lexer = before.lexer)
    (current : after.current = before.current) : (feed symbols).Ahead tokens after := by
  induction tokens generalizing before after with
  | nil => exact current.trans h
  | cons token tokens ih =>
    obtain ⟨looking, next, moved, further⟩ := h
    refine ⟨current.trans looking, ?_⟩
    change advance symbols before = .ok () next at moved
    change ∃ next, advance symbols after = .ok () next ∧ _
    rw [advance_eq] at moved ⊢
    rw [lexer]
    cases result : Lexer.next symbols before.lexer with
    | error fault lexer =>
      rw [result] at moved
      cases moved
    | ok token? lexer =>
      rw [result] at moved
      cases token? with
      | none =>
        cases moved
        exact ⟨_, rfl, ih further rfl rfl⟩
      | some token =>
        cases moved
        exact ⟨_, rfl, ih further rfl rfl⟩

/-- Planting leaves all that is ahead. -/
theorem steady (symbols : SymbolTable) : (feed symbols).Steady := by
  constructor
  · intro opcode before after tokens planted ahead
    obtain ⟨tape, _, rfl⟩ := onTape_ok planted
    exact ahead_congr ahead rfl rfl
  · intro index before after tokens planted ahead
    obtain ⟨tape, _, rfl⟩ := onTape_ok planted
    exact ahead_congr ahead rfl rfl

/-! ## The tape -/

/-- Looking at the next lexeme leaves the tape. -/
theorem tape_of_advance {before after : Compiler} (h : advance symbols before = .ok () after) :
    after.tape = before.tape := by
  rw [advance_eq] at h
  split at h <;> cases h <;> rfl

/-- The words that have been planted are on the tape, which has kept its capacity. -/
theorem tape_of_trace {first last : Compiler} {tokens : List Token} {words : List Word}
    (trace : (feed symbols).Trace first tokens words last) :
    last.tape.toList = first.tape.toList ++ words ∧
      first.tape.room = words.length + last.tape.room ∧
      last.tape.overflow = first.tape.overflow := by
  induction trace with
  | refl state => simp
  | advance _ moved _ ih => rwa [tape_of_advance moved] at ih
  | plant planted _ ih =>
    obtain ⟨tape, pushed, rfl⟩ := onTape_ok planted
    obtain ⟨place, rfl⟩ := Tape.plant_ok pushed
    obtain ⟨list, room, overflow⟩ := ih
    rw [BoundedStack.room_pushed] at room
    refine ⟨by simpa using list, ?_, overflow⟩
    rw [List.length_cons]
    omega
  | plantConstant _ planted _ ih =>
    obtain ⟨tape, pushed, rfl⟩ := onTape_ok planted
    obtain ⟨place, _, rfl⟩ := Tape.plantConstant_ok pushed
    obtain ⟨list, room, overflow⟩ := ih
    rw [BoundedStack.room_pushed, BoundedStack.room_pushed] at room
    refine ⟨by simpa using list, ?_, overflow⟩
    rw [List.length_cons, List.length_cons]
    omega

end Compiler

end TapeCalc
