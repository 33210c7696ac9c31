import TapeCalc.Proofs.Compiler.Origin
import TapeCalc.Proofs.Lexer.Marks

/-!
# Comments of a whole text

Every lexeme is looked for afresh, so whether a comment is open is never known for longer than one
gap.  Still the marks of a whole text are accounted for.  A text that compiles has an even number of
them.  A text that is refused for a comment has an odd number, and the fault points at everything
from the last mark on.  And a text has no expression at all if and only if it is a single gap.

Main results:

- Theorem {lit}`Compiler.balanced_of_trace`: the marks in front of what a compilation has come to.
- Theorem {lit}`Compiler.missing_iff_isGap`: texts without an expression.
- Theorem {lit}`comments_are_accounted_for`: what the marks of a text have to do with its outcome.
-/

namespace TapeCalc

namespace Compiler

variable {symbols : SymbolTable} {text : List Char} {limits : Limits}

/-- Looking at the next lexeme keeps the number of marks even. -/
theorem balanced_of_advance (named : ∀ symbol ∈ symbols.symbols, symbol.spelling ≠ [])
    (names : symbols.Unmarked) {before after : Compiler} (h : before.lexer.Balanced text)
    (moved : advance symbols before = .ok () after) : after.lexer.Balanced text := by
  rw [advance_eq] at moved
  split at moved
  · cases moved
  · cases moved
    exact h.next named names ‹_›
  · cases moved
    exact h.next named names ‹_›

/-- Along a compilation the number of marks stays even. -/
theorem balanced_of_trace (named : ∀ symbol ∈ symbols.symbols, symbol.spelling ≠ [])
    (names : symbols.Unmarked) {first last : Compiler} {tokens : List Token} {words : List Word}
    (trace : (feed symbols).Trace first tokens words last) (h : first.lexer.Balanced text) :
    last.lexer.Balanced text :=
  holds_of_trace (fun state => state.lexer.Balanced text)
    (fun balanced _ moved => balanced_of_advance named names balanced moved)
    (fun _ balanced => balanced) trace h

/-- Where there is no next lexeme there has only been a gap, and nothing is left of the text. -/
theorem finished_of_advance (named : ∀ symbol ∈ symbols.symbols, symbol.spelling ≠ [])
    {before after : Compiler} (moved : advance symbols before = .ok () after)
    (ended : after.current = none) : IsGap before.lexer.rest ∧ after.lexer.rest = [] := by
  rw [advance_eq] at moved
  split at moved
  · cases moved
  · cases moved
    obtain ⟨isGap, nothing, _⟩ := Lexer.finished_of_next named ‹_›
    exact ⟨isGap, nothing⟩
  · cases moved
    cases ended

/-- A text that has been compiled has an even number of marks. -/
theorem even_of_ok (named : ∀ symbol ∈ symbols.symbols, symbol.spelling ≠ [])
    (names : symbols.Unmarked) {reached : Compiler} {rounds maxDepth : Nat}
    (ended : Descent.whole (feed symbols) rounds maxDepth (start text limits) = .ok () reached) :
    Even (text.count commentMark) := by
  have cases := Feed.whole_cases (lawful symbols) rounds maxDepth (start text limits)
  rw [ended] at cases
  obtain ⟨first, tokens, words, moved, trace, _, finished⟩ := cases
  have balanced := balanced_of_trace named names trace
    (balanced_of_advance named names (Lexer.balanced_ofText text _) moved)
  have nothing := holds_of_trace (fun state => state.current = none → state.lexer.rest = [])
    (fun _ _ moved ended => (finished_of_advance named moved ended).2)
    (fun _ nothing => nothing) trace
    (fun ended => (finished_of_advance named moved ended).2) finished
  obtain ⟨front, whole, _, even⟩ := balanced
  rw [nothing, List.append_nil] at whole
  rwa [whole]

/-- Where a step fails for a comment, it is the lexer that has failed. -/
theorem Raises.unterminated {state reached : Compiler} {fault : Fault}
    (raises : Raises symbols state fault reached) (code : fault.code = .unterminatedComment) :
    ∃ lexer, Lexer.next symbols state.lexer = .error fault lexer := by
  cases raises with
  | lexeme failed => exact ⟨_, failed⟩
  | @place place _ _ found =>
    have same : place = .unterminatedComment := code
    subst same
    exact absurd found (by decide)

/-- A compilation that fails for a comment fails for one that begins with the last of an odd number
of marks. -/
theorem odd_of_unterminated (named : ∀ symbol ∈ symbols.symbols, symbol.spelling ≠ [])
    (names : symbols.Unmarked) {reached : Compiler} {fault : Fault}
    (failure : Failure symbols text limits fault reached)
    (code : fault.code = .unterminatedComment) :
    Odd (text.count commentMark) ∧ ∃ front body, text = front ++ commentMark :: body ∧
      commentMark ∉ body ∧ fault.column = ⟨front.length, text.length⟩ := by
  have sound := sound_start text limits
  have balanced := Lexer.balanced_ofText text (Pool.empty limits.maxConstants)
  cases failure with
  | missing => cases code
  | first failed =>
    obtain ⟨lexer, failed, _⟩ := next_of_advance_error failed
    exact balanced.unterminated nofun failed code
  | later moved _ trace raises =>
    obtain ⟨lexer, failed⟩ := raises.unterminated code
    have further := balanced_of_trace named names trace
      (balanced_of_advance named names balanced moved)
    refine further.unterminated ?_ failed code
    rw [((sound.of_advance_ok moved).trace trace).pool]
    decide

/-- In front of a text that is a gap a compilation finds nothing to look at. -/
theorem advance_of_isGap (named : ∀ symbol ∈ symbols.symbols, symbol.spelling ≠ [])
    {before : Compiler} (isGap : IsGap before.lexer.rest) :
    ∃ after, advance symbols before = .ok () after ∧ after.current = none := by
  rw [advance_eq, Lexer.next_eq, Lexer.scan_of_isGap named isGap]
  exact ⟨_, rfl, rfl⟩

/-- A compilation fails for the lack of an expression if and only if its text is a gap. -/
theorem missing_iff_isGap (named : ∀ symbol ∈ symbols.symbols, symbol.spelling ≠ [])
    (text : List Char) (limits : Limits) :
    (∃ fault, (compileWith symbols text limits).outcome = .error fault ∧
      fault.code = .missingExpression) ↔ IsGap text := by
  have sound := sound_start text limits
  constructor
  · rintro ⟨fault, failed, code⟩
    obtain ⟨reached, failed⟩ := exists_reached_of_error failed
    have other : fault.code ∉ textFaults := by
      rw [code]
      decide
    cases failure_of_error failed with
    | missing moved nothing => exact (finished_of_advance named moved nothing).1
    | first failed => exact absurd ((raises_of_advance failed).mem_textFaults sound) other
    | later moved _ trace raises =>
      exact absurd (raises.mem_textFaults ((sound.of_advance_ok moved).trace trace)) other
  · intro isGap
    have ahead : IsGap (start text limits).lexer.rest := isGap
    obtain ⟨first, moved, nothing⟩ := advance_of_isGap named ahead
    refine ⟨.plain .missingExpression, ?_, rfl⟩
    have looking : ((feed symbols).current first).isNone = true :=
      Option.isNone_iff_eq_none.mpr nothing
    rw [outcome_compileWith, Feed.whole_of_advance moved, if_pos looking]

end Compiler

/-- The comments of a text are accounted for, if no name has a mark in it.  A text that compiles has
an even number of marks.  A text that is refused for an unterminated comment has an odd number, and
the range of the fault goes from the last mark to the end of the text.  A text is refused for the
lack of an expression if and only if it consists of blanks and closed comments. -/
theorem comments_are_accounted_for {xName yName : String} {symbols : SymbolTable}
    (bound : SymbolTable.ofNames xName yName = .ok symbols) (plainX : commentMark ∉ xName.toList)
    (plainY : commentMark ∉ yName.toList) (text : String) (limits : Limits) :
    (∀ program, compile text xName yName limits = .ok program →
        Even (text.toList.count commentMark)) ∧
      (∀ fault, compile text xName yName limits = .error fault →
        fault.code = .unterminatedComment →
          Odd (text.toList.count commentMark) ∧
            ∃ front body, text.toList = front ++ commentMark :: body ∧ commentMark ∉ body ∧
              fault.column = ⟨front.length, text.toList.length⟩) ∧
      ((∃ fault, compile text xName yName limits = .error fault ∧
        fault.code = .missingExpression) ↔ IsGap text.toList) := by
  have named := (SymbolTable.reachable_of_ofNames bound).spelling_ne_nil
  have names := SymbolTable.unmarked_of_ofNames bound plainX plainY
  rw [compile_of_ofNames bound]
  refine ⟨?_, ?_, Compiler.missing_iff_isGap named text.toList limits⟩
  · intro program compiled
    obtain ⟨reached, ended, _⟩ := Compiler.exists_reached_of_ok compiled
    exact Compiler.even_of_ok named names ended
  · intro fault failed code
    obtain ⟨reached, failed⟩ := Compiler.exists_reached_of_error failed
    exact Compiler.odd_of_unterminated named names (Compiler.failure_of_error failed) code

/-- In {lit}`x \x60 one \x60 + \x60 two` the second comment is left open.  It is found although an
expression stands in front of it, and there are three marks. -/
theorem comment_left_open :
    ∃ fault, SymbolTable.ofNames "x" "" = .ok ⟨[⟨['x'], .x⟩]⟩ ∧
      compile "x \x60 one \x60 + \x60 two" "x" "" .standard = .error fault ∧
      fault.code = .unterminatedComment ∧ fault.column = ⟨12, 17⟩ ∧
      Odd ("x \x60 one \x60 + \x60 two".toList.count commentMark) := by
  have bound : SymbolTable.ofNames "x" "" = .ok ⟨[⟨['x'], .x⟩]⟩ := rfl
  have failed : compile "x \x60 one \x60 + \x60 two" "x" "" .standard =
      .error ⟨.unterminatedComment, ⟨12, 17⟩, ""⟩ := rfl
  have counted := (comments_are_accounted_for bound (by decide) (by decide)
    "x \x60 one \x60 + \x60 two" .standard).2.1 _ failed rfl
  exact ⟨_, bound, failed, rfl, rfl, counted.1⟩

end TapeCalc
