import TapeCalc.Proofs.Compiler.Acceptance
import TapeCalc.Proofs.Lexer.Extension

/-!
# Compiling with more names

A text that is compiled without names is compiled to the same program with names, if these bind,
begin like no literal and have no separator in them.  So a name may be the beginning of a fixed
spelling, or the other way round, and no part of a text without variables is ever taken for it.

Main results:

- Theorem {lit}`tape_of_ok`: the words of a program determine its tape.
- Theorem {lit}`compile_with_more_names`: what names do to a text that is compiled without them.
-/

namespace TapeCalc

section Extension

variable {symbols : SymbolTable} {text : List Char} {limits : Limits} {program : Program}

/-- The words of a program determine its tape, which has the capacity that the limits allow. -/
theorem tape_of_ok (compiled : (compileWith symbols text limits).outcome = .ok program) :
    program.tape =
      ⟨program.words.reverse, limits.maxCodeLen - program.words.length, .expressionTooLong⟩ := by
  have ends := Feed.whole_cases (Compiler.lawful symbols) (text.length + 1) limits.maxDepth
    (.start text limits)
  rw [outcome_compileWith] at compiled
  cases result : Descent.whole (Compiler.feed symbols) (text.length + 1) limits.maxDepth
      (.start text limits) with
  | error fault reached =>
    rw [result] at compiled
    cases compiled
  | ok _ reached =>
    rw [result] at compiled ends
    cases compiled
    obtain ⟨first, tokens, words, moved, trace, _⟩ := ends
    obtain ⟨list, room, overflow⟩ := Compiler.tape_of_trace trace
    rw [Compiler.tape_of_advance moved] at list room overflow
    have planted : reached.program.words = words := list
    have start : limits.maxCodeLen = words.length + reached.tape.room := room
    rw [planted, start, Nat.add_sub_cancel_left, ← planted]
    change reached.tape = ⟨reached.tape.entries.reverse.reverse, reached.tape.room, _⟩
    rw [List.reverse_reverse]
    exact congrArg (BoundedStack.mk _ _) overflow

/-- A program that is compiled without names is compiled with names that keep apart. -/
theorem Compiled.extended (named : ∀ symbol ∈ symbols.symbols, symbol.spelling ≠ [])
    (distinct : symbols.Distinct) (names : symbols.NamesKeepApart) {lexemes : List Lexeme}
    (compiled : (compileWith .empty text limits).outcome = .ok program)
    (h : Compiled .empty text limits lexemes program) :
    (compileWith symbols text limits).outcome = .ok program := by
  obtain ⟨last, pool, yields⟩ := h.yields
  obtain ⟨expr, derives, fits⟩ := h.fits
  have yields := yields.extended named distinct names derives.isChain_apart
  obtain ⟨program', compiled'⟩ := ok_of_fits named yields derives fits h.indices
  obtain ⟨lexemes', h'⟩ := compiled_of_ok named compiled'
  obtain ⟨last', pool', yields'⟩ := h'.yields
  obtain ⟨rfl, rfl⟩ := yields.unique yields'
  have words : program'.words = program.words := by
    rw [h.code expr derives, h'.code expr derives]
  have tapes : program'.tape = program.tape := by
    rw [tape_of_ok compiled, tape_of_ok compiled', words]
  have pools : program'.pool = program.pool := pool'.trans pool.symm
  rw [compiled']
  rcases program with ⟨_, _⟩
  cases tapes
  cases pools
  rfl

end Extension

/-! ## Names for the variables -/

/-- A text that is compiled without names is compiled to the same program with any names that bind,
if neither begins with a digit or a point or has an operator, a parenthesis, a blank or the mark of
comments in it. -/
theorem compile_with_more_names {text xName yName : String} {limits : Limits} {program : Program}
    {symbols : SymbolTable} (compiled : compile text "" "" limits = .ok program)
    (bound : SymbolTable.ofNames xName yName = .ok symbols) (plainX : KeepsApart xName.toList)
    (plainY : KeepsApart yName.toList) : compile text xName yName limits = .ok program := by
  have reachable := SymbolTable.reachable_of_ofNames bound
  have unnamed : SymbolTable.ofNames "" "" = .ok .empty := rfl
  rw [compile_of_ofNames unnamed] at compiled
  rw [compile_of_ofNames bound]
  obtain ⟨lexemes, h⟩ := compiled_of_ok SymbolTable.Reachable.empty.spelling_ne_nil compiled
  exact h.extended reachable.spelling_ne_nil (SymbolTable.distinct_of_reachable reachable)
    (SymbolTable.namesKeepApart_of_ofNames bound plainX plainY) compiled

/-- The text {lit}`tan(pi)` is compiled to the same program with the names {lit}`t` and {lit}`pie`,
although the first is the beginning of a fixed spelling and the second goes on where one ends. -/
theorem compile_tan_with_more_names :
    KeepsApart "t".toList ∧ KeepsApart "pie".toList ∧
      (∃ symbols, SymbolTable.ofNames "t" "pie" = .ok symbols) ∧
      ∃ program, compile "tan(pi)" "" "" .standard = .ok program ∧
        compile "tan(pi)" "t" "pie" .standard = .ok program := by
  have plainX : KeepsApart "t".toList := by decide
  have plainY : KeepsApart "pie".toList := by decide
  have compiles : (compile "tan(pi)" "" "" .standard).toOption.isSome = true := by decide +kernel
  have binds : (SymbolTable.ofNames "t" "pie").toOption.isSome = true := by decide +kernel
  cases bound : SymbolTable.ofNames "t" "pie" with
  | error fault =>
    rw [bound] at binds
    cases binds
  | ok symbols =>
    cases compiled : compile "tan(pi)" "" "" .standard with
    | error fault =>
      rw [compiled] at compiles
      cases compiles
    | ok program =>
      have same := compile_with_more_names compiled bound plainX plainY
      exact ⟨plainX, plainY, ⟨symbols, rfl⟩, program, rfl, same⟩

end TapeCalc
