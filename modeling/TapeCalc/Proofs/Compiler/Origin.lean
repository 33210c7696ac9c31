import TapeCalc.Proofs.Compiler.Faults

/-!
# Where the faults of a compilation come from

A compilation fails in one of three ways.  The text has no lexeme, a lexeme cannot be read, or there
is something wrong at the lexeme that is looked at.  So the place of every fault is either one that
the lexer has found, or the place of the lexeme that is looked at.

What each step of a compilation keeps holds wherever it fails.

Main definitions:

- {lit}`Compiler.Raises`: how one step of a compilation fails.
- {lit}`Compiler.Failure`: how a whole compilation fails.

Main results:

- Theorem {lit}`Compiler.holds_of_trace`: what the steps of a compilation keep.
- Theorem {lit}`Compiler.failure_of_error`: the origin of every fault.
-/

namespace TapeCalc

namespace Compiler

variable {symbols : SymbolTable} {text : List Char} {limits : Limits}

/-! ## Single steps -/

/-- The codes of the faults at the lexeme that is looked at: those of the grammar, and those of a
tape that takes no more. -/
def placeFaults : List FaultCode :=
  Feed.grammarFaults ++ [.tooManyConstants, .expressionTooLong]

/-- How a step fails: the next lexeme cannot be read, or there is a fault at the lexeme that is
looked at. -/
inductive Raises (symbols : SymbolTable) (state : Compiler) : Fault → Compiler → Prop where
  | lexeme {fault : Fault} {lexer : Lexer}
      (failed : Lexer.next symbols state.lexer = .error fault lexer) :
      Raises symbols state fault { state with lexer }
  | place {code : FaultCode} {detail : String} (tape : Tape) (found : code ∈ placeFaults) :
      Raises symbols state ⟨code, state.lexer.column, detail⟩ { state with tape }

/-- Where the next lexeme cannot be looked at, the lexer cannot read it. -/
theorem next_of_advance_error {before after : Compiler} {fault : Fault}
    (failed : advance symbols before = .error fault after) :
    ∃ lexer, Lexer.next symbols before.lexer = .error fault lexer ∧
      after = { before with lexer } := by
  rw [advance_eq] at failed
  split at failed
  · cases failed
    exact ⟨_, ‹_›, rfl⟩
  · cases failed
  · cases failed

/-- How looking at the next lexeme fails. -/
theorem raises_of_advance {before after : Compiler} {fault : Fault}
    (failed : advance symbols before = .error fault after) : Raises symbols before fault after := by
  obtain ⟨lexer, unread, rfl⟩ := next_of_advance_error failed
  exact .lexeme unread

/-- A step on the tape that fails does so at the lexeme that is looked at. -/
theorem raises_of_onTape {step : Action Tape Unit} {before after : Compiler} {fault : Fault}
    (failed : onTape step before = .error fault after)
    (found : ∀ cause tape, step before.tape = .error cause tape → cause.code ∈ placeFaults) :
    Raises symbols before fault after := by
  rw [onTape_eq] at failed
  split at failed
  · cases failed
  · rename_i cause tape refused
    cases failed
    exact .place tape (found cause tape refused)

/-- How a sound compilation is refused a step. -/
theorem Sound.raises {before after : Compiler} {fault : Fault} (h : before.Sound text)
    (refused : (feed symbols).Refuses before fault after) : Raises symbols before fault after := by
  have limit : before.tape.overflow ∈ placeFaults := by
    rw [h.tape]
    decide
  cases refused with
  | advance _ failed => exact raises_of_advance failed
  | plant failed =>
    refine raises_of_onTape failed fun cause tape refused => ?_
    rw [(Tape.plant_error refused).2]
    exact limit
  | plantConstant _ failed =>
    refine raises_of_onTape failed fun cause tape refused => ?_
    rcases Tape.plantConstant_error refused with ⟨_, rfl⟩ | ⟨_, rfl⟩
    · exact limit
    · decide
  | grammar found => exact .place before.tape (List.mem_append_left _ found)

/-- A step of a sound compilation fails because of the text. -/
theorem Raises.mem_textFaults {state reached : Compiler} {fault : Fault}
    (raises : Raises symbols state fault reached) (h : state.Sound text) :
    fault.code ∈ textFaults := by
  cases raises with
  | lexeme failed =>
    have step := Lexer.next_cases symbols h.within
    rw [failed] at step
    rcases step with lexical | ⟨_, full⟩
    · exact List.mem_append_left _ (List.mem_append_left _ lexical)
    · rw [full, h.pool]
      decide
  | @place code _ _ found =>
    have subset : ∀ code ∈ placeFaults, code ∈ textFaults := by decide
    exact subset code found

/-! ## Steps in a row -/

/-- What looking at the next lexeme keeps, whatever is planted, is kept along a trace. -/
theorem holds_of_trace (holds : Compiler → Prop)
    (advanced : ∀ {before after}, holds before → before.current.isSome →
      advance symbols before = .ok () after → holds after)
    (planted : ∀ {state} tape, holds state → holds { state with tape })
    {first last : Compiler} {tokens : List Token} {words : List Word}
    (trace : (feed symbols).Trace first tokens words last) (h : holds first) : holds last := by
  induction trace with
  | refl state => exact h
  | advance looking moved _ ih => exact ih (advanced h (Option.isSome_of_eq_some looking) moved)
  | plant planting _ ih =>
    obtain ⟨tape, _, rfl⟩ := onTape_ok planting
    exact ih (planted tape h)
  | plantConstant _ planting _ ih =>
    obtain ⟨tape, _, rfl⟩ := onTape_ok planting
    exact ih (planted tape h)

/-! ## Whole compilations -/

/-- How a compilation of a text fails: there is no lexeme, the first one cannot be read, or a step
behind the first one fails. -/
inductive Failure (symbols : SymbolTable) (text : List Char) (limits : Limits) :
    Fault → Compiler → Prop where
  | missing {first : Compiler} (moved : advance symbols (start text limits) = .ok () first)
      (nothing : first.current = none) :
      Failure symbols text limits (.plain .missingExpression) first
  | first {reached : Compiler} {fault : Fault}
      (failed : advance symbols (start text limits) = .error fault reached) :
      Failure symbols text limits fault reached
  | later {first state reached : Compiler} {fault : Fault} {tokens : List Token}
      {words : List Word} (moved : advance symbols (start text limits) = .ok () first)
      (looking : first.current.isSome) (trace : (feed symbols).Trace first tokens words state)
      (raises : Raises symbols state fault reached) : Failure symbols text limits fault reached

/-- The origin of every fault of a compilation. -/
theorem failure_of_error {rounds maxDepth : Nat} {reached : Compiler} {fault : Fault}
    (failed : Descent.whole (feed symbols) rounds maxDepth (start text limits) =
      .error fault reached) : Failure symbols text limits fault reached := by
  have sound := sound_start text limits
  have ends := Feed.whole_cases (lawful symbols) rounds maxDepth (start text limits)
  rw [failed] at ends
  rcases ends with unread | ⟨first, moved, ⟨rfl, nothing, rfl⟩ | stuck⟩
  · exact .first unread
  · exact .missing moved nothing
  · cases looking : first.current with
    | none =>
      have nothing : ((feed symbols).current first).isNone = true :=
        Option.isNone_iff_eq_none.mpr looking
      rw [Feed.whole_of_advance moved, if_pos nothing] at failed
      cases failed
      exact .missing moved looking
    | some token =>
      obtain ⟨_, _, state, trace, refused⟩ := stuck
      exact .later moved (Option.isSome_of_eq_some looking) trace
        (((sound.of_advance_ok moved).trace trace).raises refused)

/-- A fault of a compilation is that of its descent. -/
theorem exists_reached_of_error {fault : Fault}
    (failed : (compileWith symbols text limits).outcome = .error fault) :
    ∃ reached, Descent.whole (feed symbols) (text.length + 1) limits.maxDepth
      (start text limits) = .error fault reached := by
  rw [outcome_compileWith] at failed
  split at failed
  · cases failed
  · cases failed
    exact ⟨_, ‹_›⟩

/-- A program that a compilation has led to is that of its descent. -/
theorem exists_reached_of_ok {program : Program}
    (compiled : (compileWith symbols text limits).outcome = .ok program) :
    ∃ reached, Descent.whole (feed symbols) (text.length + 1) limits.maxDepth
      (start text limits) = .ok () reached ∧ program = reached.program := by
  rw [outcome_compileWith] at compiled
  split at compiled
  · cases compiled
    exact ⟨_, ‹_›, rfl⟩
  · cases compiled

end Compiler

end TapeCalc
