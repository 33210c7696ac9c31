import TapeCalc.Proofs.Compiler.Comments
import TapeCalc.Proofs.Compiler.Setters
import TapeCalc.Proofs.Lexer.Calls

/-!
# The places of faults

A fault of a text points into the text, at one character or more, or right behind the text where the
text has ended too early.  Only a text without any expression has a fault that points nowhere.

The places come from the lexer.  A fault of the lexer has the range of what it has found.  Any other
fault has the range of the lexeme that is looked at, and where no lexeme is looked at this is the
place behind the text.

Main definitions:

- {lit}`Compiler.Placed`: the range that a compilation remembers.
- {lit}`Compiler.Shows`: faults with a place.

Main results:

- Theorem {lit}`Compiler.Failure.shows`: all faults but one have a place.
- Theorem {lit}`faults_point_into_text`: the places of faults, of setters and of lexers.
-/

namespace TapeCalc

namespace Lexer

variable {symbols : SymbolTable} {text : List Char} {before after : Lexer}

/-- The range of a fault that a lexer finds has a character of the text in it. -/
theorem column_of_fault (named : ∀ symbol ∈ symbols.symbols, symbol.spelling ≠ [])
    (within : before.Within text) {fault : Fault}
    (failed : next symbols before = .error fault after) :
    fault.column.start < fault.column.stop ∧ fault.column.stop ≤ text.length := by
  obtain ⟨column, found⟩ := finding_of_next_error failed
  have other : (scan symbols before.position before.rest).finding ≠ .finished := by
    intro ended
    rcases found with found | ⟨⟨_, found⟩, _⟩ <;> cases ended.symm.trans found
  rw [within.rest] at other column
  rw [column]
  exact ⟨lt_scan named within.inside other, (in_scan symbols within.inside).inside⟩

/-- The range of a lexeme has a character of the text in it. -/
theorem column_of_lexeme (named : ∀ symbol ∈ symbols.symbols, symbol.spelling ≠ [])
    (within : before.Within text) {token : Token}
    (taken : next symbols before = .ok (some token) after) :
    after.column.start < after.column.stop ∧ after.column.stop ≤ text.length := by
  have moves := within.moves taken
  rw [moves.stop]
  exact ⟨moves.takes.lt named, moves.within.inside⟩

end Lexer

namespace Compiler

variable {symbols : SymbolTable} {text : List Char} {limits : Limits}

/-! ## The range that is remembered -/

/-- The range that a compilation remembers: it has a character of the text in it if a lexeme is
looked at, and is the place behind the text if none is. -/
structure Placed (text : List Char) (state : Compiler) : Prop where
  within : state.lexer.Within text
  looking : state.current.isSome →
    state.lexer.column.start < state.lexer.column.stop ∧ state.lexer.column.stop ≤ text.length
  ended : state.current = none → state.lexer.column = .point text.length ∧ state.lexer.atEnd

/-- Behind the first lexeme, or the lack of one, a range is remembered. -/
theorem placed_of_advance (named : ∀ symbol ∈ symbols.symbols, symbol.spelling ≠ [])
    {before after : Compiler} (within : before.lexer.Within text)
    (moved : advance symbols before = .ok () after) : after.Placed text := by
  have finished := finished_of_advance named moved
  rw [advance_eq] at moved
  split at moved
  · cases moved
  · cases moved
    refine ⟨(within.ends ‹_›).1, nofun, fun _ => ⟨Lexer.column_of_next_none within ‹_›, ?_⟩⟩
    exact List.isEmpty_iff.mpr (finished rfl).2
  · cases moved
    exact ⟨(within.moves ‹_›).within, fun _ => Lexer.column_of_lexeme named within ‹_›, nofun⟩

/-- A range is remembered along a compilation. -/
theorem Placed.trace (named : ∀ symbol ∈ symbols.symbols, symbol.spelling ≠ [])
    {first last : Compiler} {tokens : List Token} {words : List Word} (h : first.Placed text)
    (trace : (feed symbols).Trace first tokens words last) : last.Placed text :=
  holds_of_trace (Placed text)
    (fun placed _ moved => placed_of_advance named placed.within moved)
    (fun _ placed => ⟨placed.within, placed.looking, placed.ended⟩) trace h

/-! ## Faults with a place -/

/-- A fault has a place: there is a character of the text in its range, or it points behind a text
that is not empty, and the compilation has come to the end. -/
def Shows (text : List Char) (fault : Fault) (reached : Compiler) : Prop :=
  fault.column.start < fault.column.stop ∧ fault.column.stop ≤ text.length ∨
    0 < text.length ∧ fault.column = .point text.length ∧
      reached.current = none ∧ reached.lexer.atEnd

/-- Where a range is remembered, every fault has a place. -/
theorem Placed.shows (named : ∀ symbol ∈ symbols.symbols, symbol.spelling ≠ [])
    {state reached : Compiler} {fault : Fault} (h : state.Placed text) (some : 0 < text.length)
    (raises : Raises symbols state fault reached) : Shows text fault reached := by
  cases raises with
  | lexeme failed => exact .inl (Lexer.column_of_fault named h.within failed)
  | place tape found =>
    by_cases nothing : state.current = none
    · obtain ⟨column, atEnd⟩ := h.ended nothing
      exact .inr ⟨some, column, nothing, atEnd⟩
    · exact .inl (h.looking (Option.isSome_iff_ne_none.mpr nothing))

/-- All faults have a place but the one that reports the lack of an expression. -/
theorem Failure.shows (named : ∀ symbol ∈ symbols.symbols, symbol.spelling ≠ [])
    {reached : Compiler} {fault : Fault} (failure : Failure symbols text limits fault reached)
    (other : fault.code ≠ .missingExpression) : Shows text fault reached := by
  have within := (sound_start text limits).within
  cases failure with
  | missing => exact absurd rfl other
  | first failed =>
    obtain ⟨lexer, failed, _⟩ := next_of_advance_error failed
    exact .inl (Lexer.column_of_fault named within failed)
  | later moved looking trace raises =>
    have placed := placed_of_advance named within moved
    obtain ⟨first, last⟩ := placed.looking looking
    exact (placed.trace named trace).shows named (by omega) raises

/-- A fault with a place does not point nowhere. -/
theorem Shows.ne_nowhere {reached : Compiler} {fault : Fault} (h : Shows text fault reached) :
    fault.column ≠ .nowhere := by
  intro hidden
  rcases h with ⟨positive, _⟩ | ⟨some, last, _⟩
  · rw [hidden] at positive
    exact absurd positive (Nat.lt_irrefl 0)
  · rw [hidden] at last
    have same : 0 = text.length := congrArg Span.start last
    omega

end Compiler

/-- Every fault of a text points into the text, unless the text has no expression: at one character
or more, or right behind a text that is not empty if the compilation has come to the end.  So it
never points nowhere.

No fault is given a place or a detail twice.  With any setters that are right on new faults a
compilation is the same, and where the descent fails by itself it fails with a new fault.

Whatever a lexer is asked, also after it has failed, it never moves back nor beyond the end of the
text, and the range that it remembers can be cut out of the text. -/
theorem faults_point_into_text (text xName yName : String) (limits : Limits) :
    (∀ fault, compile text xName yName limits = .error fault → fault.kind = .parse →
      fault.code ≠ .missingExpression →
        fault.column ≠ .nowhere ∧
          ∃ symbols reached, SymbolTable.ofNames xName yName = .ok symbols ∧
            Descent.whole (Compiler.feed symbols) (text.toList.length + 1) limits.maxDepth
              (.start text.toList limits) = .error fault reached ∧
            Compiler.Shows text.toList fault reached) ∧
      (∀ set : Setters, set.Fair →
        set.compile text xName yName limits = compile text xName yName limits ∧
          ∀ (σ : Type) (feed : Feed σ) (code : FaultCode) (detail : String) (state : σ),
            Descent.fail feed code detail state =
              .error (set.found code (feed.column state) detail) state) ∧
      ∀ (symbols : SymbolTable) (pool : Pool) (calls more : List Lexer.Call),
        let before := Lexer.afterCalls symbols calls (.ofText text.toList pool)
        let after := Lexer.afterCalls symbols (calls ++ more) (.ofText text.toList pool)
        before.position ≤ after.position ∧ after.position ≤ text.toList.length ∧
          after.rest = text.toList.drop after.position ∧
          after.column.start ≤ after.column.stop ∧ after.column.stop ≤ text.toList.length ∧
          (after.column.slice text.toList).length = after.column.stop - after.column.start := by
  refine ⟨?_, fun set fair => ⟨fair.compile_eq text xName yName limits, ?_⟩, ?_⟩
  · intro fault failed kind other
    cases bound : SymbolTable.ofNames xName yName with
    | error cause =>
      rw [compile, compilation, bound] at failed
      cases failed
      rw [(SymbolTable.ofNames_eq_error_iff.mp bound).1] at kind
      cases kind
    | ok symbols =>
      have named := (SymbolTable.reachable_of_ofNames bound).spelling_ne_nil
      rw [compile_of_ofNames bound] at failed
      obtain ⟨reached, failed⟩ := Compiler.exists_reached_of_error failed
      have shows := (Compiler.failure_of_error failed).shows named other
      exact ⟨shows.ne_nowhere, symbols, reached, rfl, failed, shows⟩
  · intro σ feed code detail state
    exact fair.fail_eq feed code detail state
  · intro symbols pool calls more
    have points := (Lexer.points_ofText text.toList pool).afterCalls symbols calls
    obtain ⟨last, moved⟩ := points.1.afterCalls symbols more
    rw [← Lexer.afterCalls_append] at last moved
    exact ⟨moved, last.within.inside, last.within.rest, last.column.ordered, last.column.inside,
      last.column.length_slice⟩

/-- In {lit}`2+` an operand is missing behind the text.  Setters that refuse to overwrite anything
report the same fault, with its place and its detail. -/
theorem missing_operand_shown :
    ∃ fault reached, compile "2+" "x" "" .standard = .error fault ∧ fault.kind = .parse ∧
      fault.code ≠ .missingExpression ∧ fault.column = ⟨2, 2⟩ ∧ Setters.checking.Fair ∧
      Setters.checking.compile "2+" "x" "" .standard = .error fault ∧
      Compiler.Shows ['2', '+'] fault reached := by
  have failed : compile "2+" "x" "" .standard =
      .error ⟨.syntaxError, ⟨2, 2⟩, "EXPECTED OPERAND"⟩ := rfl
  have claims := faults_point_into_text "2+" "x" "" .standard
  obtain ⟨_, symbols, reached, _, _, shows⟩ := claims.1 _ failed rfl (by decide)
  have checked := (claims.2.1 Setters.checking Setters.fair_checking).1
  exact ⟨_, reached, failed, rfl, by decide, rfl, Setters.fair_checking, checked.trans failed, shows⟩

end TapeCalc
