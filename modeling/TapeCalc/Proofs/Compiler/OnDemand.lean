import TapeCalc.Compiler.Prelexed
import TapeCalc.Proofs.Compiler.Acceptance
import TapeCalc.Proofs.Descent.Coupling
import TapeCalc.Proofs.Lexer.Answers

/-!
# Reading lexemes on demand

A compilation asks for lexemes as it needs them, and the lexer stores values in the pool of
the program that is being built.  A descent over the list of all answers does the same: at
each step both look at one answer, and ahead of the list are the answers that the lexer
will still give.  So it makes no difference when lexemes are read.

The list is closed by the end of the text or by the first fault that reading it meets.  This
fault is reported if and only if the descent gets as far as that, which means that nothing
is left of the list.

Main definitions:

- {lit}`Prelexed.InStep`: a descent over a list in step with a compilation.
- {lit}`Prelexed.Stands`: a descent that looks at an item of its list.
- {lit}`Prelexed.reached`: where the descent over the answers for a text ends.

Main results:

- Theorem {lit}`Prelexed.outcome_compileWith`: both descents have one outcome.
- Theorem {lit}`Prelexed.fails_of_closed`: the ways a descent over a closed list fails.
- Theorem {lit}`compile_eq_prelexed`: compiling from a text and from its answers.
-/

namespace TapeCalc

namespace Prelexed

variable {symbols : SymbolTable} {answers : List Pull}

/-! ## Steps of a descent over a list -/

/-- A step on the tape leaves everything else, and its faults point at the item that is looked
at. -/
theorem onTape_eq (step : Action Tape Unit) (state : Prelexed) :
    onTape step state =
      match step state.tape with
      | .ok () tape => .ok () { state with tape }
      | .error fault tape => .error (fault.inColumn state.column) { state with tape } := by
  simp only [onTape, Action.mapFault, Action.onPart]
  cases step state.tape <;> rfl

/-- A step on the tape that succeeds leaves everything else. -/
theorem onTape_ok {step : Action Tape Unit} {before after : Prelexed}
    (h : onTape step before = .ok () after) : ∃ tape, after = { before with tape } := by
  rw [onTape_eq] at h
  split at h <;> cases h
  exact ⟨_, rfl⟩

/-- A step on the tape that fails leaves everything else and points at the item looked at. -/
theorem onTape_error {step : Action Tape Unit} {before after : Prelexed} {fault : Fault}
    (h : onTape step before = .error fault after) :
    ∃ tape, after = { before with tape } ∧ fault.column = before.column := by
  rw [onTape_eq] at h
  split at h <;> cases h
  exact ⟨_, rfl, rfl⟩

/-- Planting leaves the item that is looked at. -/
theorem lawful : feed.Lawful := by
  constructor
  · intro opcode before after planted
    obtain ⟨tape, rfl⟩ := onTape_ok planted
    rfl
  · intro index before after planted
    obtain ⟨tape, rfl⟩ := onTape_ok planted
    rfl

/-! ## In step with a compilation -/

/-- A descent over a list of answers in step with a compilation: both have one tape, both look at
one answer.  Behind a lexeme the answers of the lexer are ahead, and behind the end nothing is. -/
structure InStep (symbols : SymbolTable) (answers : List Pull) (compiler : Compiler)
    (state : Prelexed) : Prop where
  tape : state.tape = compiler.tape
  looking : state.looking = some ⟨.ok compiler.current, compiler.lexer⟩
  ahead : compiler.current.isSome → Lexer.Answers symbols compiler.lexer state.ahead
  finished : compiler.current = none → state.ahead = []
  passed : ∃ passed, answers = passed ++ ⟨.ok compiler.current, compiler.lexer⟩ :: state.ahead

/-- Looking at the next lexeme and at the next answer. -/
theorem couples_advance {compiler : Compiler} {state : Prelexed}
    (tape : state.tape = compiler.tape)
    (ahead : Lexer.Answers symbols compiler.lexer state.ahead) {passed : List Pull}
    (whole : answers = passed ++ state.ahead) :
    Action.Couples (InStep symbols answers) (fun _ => False)
      (Compiler.advance symbols compiler) (advance state) := by
  rcases state with ⟨looking, list, code⟩
  dsimp only at tape ahead whole
  rw [Compiler.advance_eq, advance]
  cases ahead with
  | finished ended =>
    rw [ended]
    exact .ok ⟨tape, rfl, (by simp), fun _ => rfl, passed, whole⟩
  | fault failed =>
    rw [failed]
    exact .fault
  | lexeme taken rest =>
    rw [taken]
    exact .ok ⟨tape, rfl, fun _ => rest, (by simp), passed, whole⟩

/-- A step on both tapes. -/
theorem couples_onTape {compiler : Compiler} {state : Prelexed}
    (h : InStep symbols answers compiler state) (step : Action Tape Unit) :
    Action.Couples (InStep symbols answers) (fun _ => False)
      (Compiler.onTape step compiler) (onTape step state) := by
  have column : state.column = compiler.lexer.column := by
    rw [Prelexed.column, h.looking]
    rfl
  rw [Compiler.onTape_eq, onTape_eq, h.tape, column]
  cases step compiler.tape with
  | ok _ tape => exact .ok ⟨rfl, h.looking, h.ahead, h.finished, h.passed⟩
  | error fault tape => exact .fault

/-- The steps of a compilation and of a descent over its answers belong together. -/
theorem coupled_feed (symbols : SymbolTable) (answers : List Pull) :
    (Compiler.feed symbols).Coupled feed (InStep symbols answers) (fun _ => False) where
  lawful := Compiler.lawful symbols
  current h := by
    change current _ = _
    rw [current, h.looking]
    rfl
  column h := by
    change Prelexed.column _ = _
    rw [Prelexed.column, h.looking]
    rfl
  advance := by
    intro compiler state h lexeme
    obtain ⟨passed, whole⟩ := h.passed
    have split : answers = (passed ++ [⟨.ok compiler.current, compiler.lexer⟩]) ++ state.ahead := by
      rw [whole, List.append_assoc]
      rfl
    exact couples_advance h.tape (h.ahead lexeme) split
  plant opcode _ _ h := couples_onTape h (Tape.plant opcode)
  plantConstant index _ _ h := couples_onTape h (Tape.plantConstant index)

/-! ## One outcome -/

/-- The answers for a text, with a pool of the limits. -/
def answersOf (symbols : SymbolTable) (text : List Char) (limits : Limits) : List Pull :=
  (Lexer.ofText text (Pool.empty limits.maxConstants)).pullAll symbols

/-- The descent over the answers for a text. -/
def descend (symbols : SymbolTable) (text : List Char) (limits : Limits) :
    EStateM.Result Fault Prelexed Unit :=
  Descent.whole feed (text.length + 1) limits.maxDepth
    (start (answersOf symbols text limits) limits)

/-- Where the descent over the answers for a text ends. -/
def reached (symbols : SymbolTable) (text : List Char) (limits : Limits) : Prelexed :=
  match descend symbols text limits with
  | .ok _ state => state
  | .error _ state => state

variable {text : List Char} {limits : Limits}

/-- A lexer in front of a text gives all the answers for it. -/
theorem answers_answersOf (named : ∀ symbol ∈ symbols.symbols, symbol.spelling ≠ [])
    (text : List Char) (limits : Limits) :
    Lexer.Answers symbols (.ofText text (Pool.empty limits.maxConstants))
      (answersOf symbols text limits) :=
  Lexer.answers_pullAll named (Lexer.within_ofText _ _)

/-- A compilation and the descent over its answers belong together. -/
theorem couples_whole (named : ∀ symbol ∈ symbols.symbols, symbol.spelling ≠ [])
    (text : List Char) (limits : Limits) :
    Action.Couples (InStep symbols (answersOf symbols text limits)) (fun _ => False)
      (Descent.whole (Compiler.feed symbols) (text.length + 1) limits.maxDepth
        (.start text limits))
      (descend symbols text limits) := by
  have steps := coupled_feed symbols (answersOf symbols text limits)
  refine steps.whole (text.length + 1) (Nat.le_refl _)
    (fun less => absurd less (Nat.lt_irrefl _)) ?_
  exact couples_advance rfl (answers_answersOf named text limits) (List.nil_append _).symm

/-- The program of a text is that of the descent over its answers, with the pool that the last of
them left. -/
theorem compile_eq_descend (symbols : SymbolTable) (text : List Char) (limits : Limits) :
    compile symbols text limits =
      match descend symbols text limits with
      | .ok () reached =>
        .ok ⟨reached.tape, (((answersOf symbols text limits).getLast?.map Pull.after).getD
          (.ofText text (Pool.empty limits.maxConstants))).pool⟩
      | .error fault _ => .error fault :=
  rfl

/-- Compiling a text has the outcome of compiling the answers for it. -/
theorem outcome_compileWith (named : ∀ symbol ∈ symbols.symbols, symbol.spelling ≠ [])
    (text : List Char) (limits : Limits) :
    (compileWith symbols text limits).outcome = compile symbols text limits := by
  have runs := couples_whole named text limits
  have ends := Feed.whole_cases (Compiler.lawful symbols) (text.length + 1) limits.maxDepth
    (.start text limits)
  rw [TapeCalc.outcome_compileWith, compile_eq_descend]
  cases result : Descent.whole (Compiler.feed symbols) (text.length + 1) limits.maxDepth
      (.start text limits) with
  | ok _ last =>
    rw [result] at runs ends
    obtain ⟨state, result', inStep⟩ := runs.of_ok
    obtain ⟨_, _, _, _, _, _, finished⟩ := ends
    obtain ⟨passed, whole⟩ := inStep.passed
    rw [inStep.finished finished] at whole
    rw [result']
    have pool : (((answersOf symbols text limits).getLast?.map Pull.after).getD
        (.ofText text (Pool.empty limits.maxConstants))).pool = last.lexer.pool := by
      rw [whole, List.getLast?_append_cons]
      rfl
    exact congrArg Except.ok (congrArg₂ Program.mk inStep.tape.symm pool.symm)
  | error fault last =>
    rw [result] at runs
    rcases runs.of_error with impossible | ⟨state, result'⟩
    · exact impossible.elim
    · rw [result']

/-! ## How a descent over a list fails -/

/-- A descent looks at an item of its list that is no fault. -/
def Stands (answers : List Pull) (state : Prelexed) : Prop :=
  ∃ passed token? after, state.looking = some ⟨.ok token?, after⟩ ∧
    answers = passed ++ ⟨.ok token?, after⟩ :: state.ahead

/-- Looking at an item has led to one that is no fault, or to the fault that is the last. -/
def Arrives (answers : List Pull) : EStateM.Result Fault Prelexed Unit → Prop
  | .ok () after => Stands answers after
  | .error fault after => after.ahead = [] ∧ fault.column = after.column ∧
      ∃ lexer, answers.getLast? = some ⟨.error fault, lexer⟩

/-- Looking at the next item of a closed list. -/
theorem arrives_advance (closed : Pull.Closed text answers) {before : Prelexed}
    (more : before.ahead ≠ []) {passed : List Pull} (whole : answers = passed ++ before.ahead) :
    Arrives answers (advance before) := by
  rcases before with ⟨looking, ahead, tape⟩
  dsimp only at more whole
  cases ahead with
  | nil => exact absurd rfl more
  | cons answer ahead =>
    rcases answer with ⟨result, lexer⟩
    cases result with
    | ok token? => exact ⟨passed, token?, lexer, rfl, whole⟩
    | error fault =>
      rw [whole] at closed
      rcases closed.last_or_lexeme with ⟨rfl, closes⟩ | ⟨_, token, lexeme⟩
      · cases closes with
        | fault column =>
          exact ⟨rfl, column, lexer, by rw [whole, List.getLast?_append_cons]; rfl⟩
      · cases lexeme

/-- Behind a lexeme a descent goes on to the next item of a closed list. -/
theorem Stands.advance (closed : Pull.Closed text answers) {before : Prelexed}
    (h : Stands answers before) (lexeme : (current before).isSome) :
    Arrives answers (Prelexed.advance before) := by
  obtain ⟨passed, token?, lexer, looking, whole⟩ := h
  have more : before.ahead ≠ [] := by
    rw [whole] at closed
    rcases closed.last_or_lexeme with ⟨_, closes⟩ | ⟨more, _⟩
    · rw [current, looking] at lexeme
      cases closes with
      | finished _ => cases lexeme
    · exact more
  have split : answers = (passed ++ [⟨.ok token?, lexer⟩]) ++ before.ahead := by
    rw [whole, List.append_assoc]
    rfl
  exact arrives_advance closed more split

/-- A descent stands at an item of its list as long as it goes on. -/
theorem Stands.trace (closed : Pull.Closed text answers) {first last : Prelexed}
    {tokens : List Token} {words : List Word} (h : Stands answers first)
    (trace : feed.Trace first tokens words last) : Stands answers last := by
  induction trace with
  | refl state => exact h
  | @advance before mid after token tokens words looking moved _ ih =>
    have lexeme : (current before).isSome := by
      rw [show current before = some token from looking]
      rfl
    have step := h.advance closed lexeme
    rw [show Prelexed.advance before = .ok () mid from moved] at step
    exact ih step
  | plant planted _ ih =>
    obtain ⟨tape, rfl⟩ := onTape_ok planted
    exact ih h
  | plantConstant _ planted _ ih =>
    obtain ⟨tape, rfl⟩ := onTape_ok planted
    exact ih h

/-- The ways in which a descent over a list of answers fails: with the fault that closes the list,
when nothing is left of it, for the lack of a first lexeme, or at an item that is no fault. -/
inductive Fails (answers : List Pull) (fault : Fault) (state : Prelexed) : Prop where
  | closing {lexer : Lexer} (last : answers.getLast? = some ⟨.error fault, lexer⟩)
      (ahead : state.ahead = []) (column : fault.column = state.column) :
      Fails answers fault state
  | missing {lexer : Lexer} (only : answers = [⟨.ok none, lexer⟩])
      (missing : fault = .plain .missingExpression) : Fails answers fault state
  | refused (stands : Stands answers state) (column : fault.column = state.column) :
      Fails answers fault state

/-- A step that is refused fails at the item that is looked at, or with the fault that closes the
list. -/
theorem Stands.fails_of_refuses (closed : Pull.Closed text answers) {before after : Prelexed}
    {fault : Fault} (h : Stands answers before) (refused : feed.Refuses before fault after) :
    Fails answers fault after := by
  cases refused with
  | advance lexeme failed =>
    have step := h.advance closed lexeme
    rw [show Prelexed.advance before = .error fault after from failed] at step
    obtain ⟨ahead, column, lexer, last⟩ := step
    exact .closing last ahead column
  | plant failed =>
    obtain ⟨tape, rfl, column⟩ := onTape_error failed
    exact .refused h column
  | plantConstant _ failed =>
    obtain ⟨tape, rfl, column⟩ := onTape_error failed
    exact .refused h column
  | grammar _ => exact .refused h rfl

/-- Without a first lexeme the list is nothing but its end. -/
theorem eq_finished_of_advance (closed : Pull.Closed text answers) {first : Prelexed}
    (moved : advance (start answers limits) = .ok () first) (looking : current first = none) :
    ∃ lexer, answers = [⟨.ok none, lexer⟩] := by
  cases answers with
  | nil =>
    obtain ⟨good, closing, impossible, _⟩ := closed
    simp at impossible
  | cons answer ahead =>
    rcases answer with ⟨result, lexer⟩
    cases result with
    | error fault => cases moved
    | ok token? =>
      cases moved
      obtain rfl : token? = none := looking
      rw [← List.nil_append (_ :: ahead)] at closed
      rcases closed.last_or_lexeme with ⟨rfl, _⟩ | ⟨_, token, lexeme⟩
      · exact ⟨lexer, rfl⟩
      · cases lexeme

/-- A whole descent over a closed list fails in one of these ways. -/
theorem fails_of_closed (closed : Pull.Closed text answers) {rounds : Nat} {fault : Fault}
    {after : Prelexed}
    (failed : Descent.whole feed rounds limits.maxDepth (start answers limits) =
      .error fault after) : Fails answers fault after := by
  have more : (start answers limits).ahead ≠ [] := by
    obtain ⟨good, closing, rfl, _⟩ := closed
    simp [start]
  have first := arrives_advance closed more (List.nil_append answers).symm
  have ends := Feed.whole_cases lawful rounds limits.maxDepth (start answers limits)
  rw [failed] at ends
  rcases ends with unread | ⟨state, moved, missing | stuck⟩
  · rw [show advance (start answers limits) = .error fault after from unread] at first
    obtain ⟨ahead, column, lexer, last⟩ := first
    exact .closing last ahead column
  · obtain ⟨rfl, looking, _⟩ := missing
    obtain ⟨lexer, only⟩ := eq_finished_of_advance closed moved looking
    exact .missing only rfl
  · rw [show advance (start answers limits) = .ok () state from moved] at first
    obtain ⟨tokens, words, mid, trace, refused⟩ := stuck
    exact (first.trace closed trace).fails_of_refuses closed refused

/-- A fault among closed answers is the last of them. -/
theorem getLast?_of_error (closed : Pull.Closed text answers) {closing : Pull} {fault : Fault}
    (member : closing ∈ answers) (failed : closing.result = .error fault) :
    answers.getLast? = some closing := by
  obtain ⟨passed, ahead, rfl⟩ := List.append_of_mem member
  rcases closed.last_or_lexeme with ⟨rfl, _⟩ | ⟨_, token, lexeme⟩
  · rw [List.getLast?_append_cons]
    rfl
  · rw [failed] at lexeme
    cases lexeme

/-- A descent fails with the fault that closes its list if and only if it has used up the list. -/
theorem Fails.eq_closing_iff (named : ∀ symbol ∈ symbols.symbols, symbol.spelling ≠ [])
    {before : Lexer} (within : before.Within text) (given : Lexer.Answers symbols before answers)
    {fault : Fault} {state : Prelexed} (fails : Fails answers fault state) {closing : Pull}
    {cause : Fault} (member : closing ∈ answers) (failed : closing.result = .error cause) :
    fault = cause ↔ state.ahead = [] := by
  have closed := given.closed within
  have last := getLast?_of_error closed member failed
  cases fails with
  | closing last' ahead _ =>
    rw [last] at last'
    cases last'
    cases failed
    exact iff_of_true rfl ahead
  | missing only _ =>
    rw [only] at member
    rw [List.mem_singleton.mp member] at failed
    cases failed
  | refused stands column =>
    obtain ⟨passed, token?, lexer, looking, whole⟩ := stands
    have inside : (⟨.ok token?, lexer⟩ : Pull) ∈ answers := by
      rw [whole]
      exact List.mem_append_right _ List.mem_cons_self
    rw [whole] at closed
    rcases closed.last_or_lexeme with ⟨ahead, _⟩ | ⟨more, token, lexeme⟩
    · rw [whole, ahead, List.getLast?_append_cons] at last
      cases last
      cases failed
    · -- The closing fault stands behind the lexeme that the fault of the descent points at.
      have behind := given.start_lt named within member failed inside lexeme
      have place : state.column = lexer.column := by
        rw [Prelexed.column, looking]
        rfl
      rw [← place, ← column] at behind
      refine iff_of_false ?_ more
      rintro rfl
      exact absurd behind (Nat.lt_irrefl _)

/-- A fault points at the item that is looked at, unless there is no lexeme at all. -/
theorem Fails.column_eq {fault : Fault} {state : Prelexed} (fails : Fails answers fault state) :
    fault.column = state.column ∨
      fault = .plain .missingExpression ∧ ∃ lexer, answers = [⟨.ok none, lexer⟩] := by
  cases fails with
  | closing _ _ column => exact Or.inl column
  | missing only missing => exact Or.inr ⟨missing, _, only⟩
  | refused _ column => exact Or.inl column

/-! ## Where the descent for a text ends -/

/-- The descent over the answers for a text fails where it ends. -/
theorem fails_reached (named : ∀ symbol ∈ symbols.symbols, symbol.spelling ≠ []) {fault : Fault}
    (failed : compile symbols text limits = .error fault) :
    Fails (answersOf symbols text limits) fault (reached symbols text limits) := by
  have closed := (answers_answersOf named text limits).closed (Lexer.within_ofText _ _)
  have ends : ∃ state, descend symbols text limits = .error fault state := by
    rw [compile_eq_descend] at failed
    cases result : descend symbols text limits with
    | ok _ state =>
      rw [result] at failed
      cases failed
    | error cause state =>
      rw [result] at failed
      cases failed
      exact ⟨state, rfl⟩
  obtain ⟨state, result⟩ := ends
  rw [reached, result]
  exact fails_of_closed closed result

/-- With a fault among the answers for a text it is not compiled. -/
theorem exists_error_of_mem (named : ∀ symbol ∈ symbols.symbols, symbol.spelling ≠ [])
    {closing : Pull} {cause : Fault} (member : closing ∈ answersOf symbols text limits)
    (failed : closing.result = .error cause) :
    ∃ fault, compile symbols text limits = .error fault := by
  cases result : compile symbols text limits with
  | error fault => exact ⟨fault, rfl⟩
  | ok program =>
    rw [← outcome_compileWith named] at result
    obtain ⟨lexemes, compiled⟩ := compiled_of_ok named result
    obtain ⟨last, _, yields⟩ := compiled.yields
    exact absurd yields ((answers_answersOf named text limits).not_yields member failed)

end Prelexed

/-! ## From a text and from its answers -/

/-- Compiling a text has the outcome, program for program and fault for fault, of a descent over
the answers that asking for its lexemes brings up to the end or the first fault.  The fault that
closes the answers is reported if and only if the descent has used up the list.  Every fault points
at the item that is looked at, but if there is no lexeme at all, the fault has no place. -/
theorem compile_eq_prelexed {xName yName : String} {symbols : SymbolTable}
    (bound : SymbolTable.ofNames xName yName = .ok symbols) (text : String) (limits : Limits) :
    compile text xName yName limits = Prelexed.compile symbols text.toList limits ∧
      Pull.Closed text.toList (Prelexed.answersOf symbols text.toList limits) ∧
      (∀ cause, (∃ closing ∈ Prelexed.answersOf symbols text.toList limits,
          closing.result = .error cause) →
        (compile text xName yName limits = .error cause ↔
          (Prelexed.reached symbols text.toList limits).ahead = [])) ∧
      ∀ fault, compile text xName yName limits = .error fault →
        fault.column = (Prelexed.reached symbols text.toList limits).column ∨
          fault = .plain .missingExpression ∧
            ∃ lexer, Prelexed.answersOf symbols text.toList limits = [⟨.ok none, lexer⟩] := by
  have named := (SymbolTable.reachable_of_ofNames bound).spelling_ne_nil
  have given := Prelexed.answers_answersOf named text.toList limits
  have within := Lexer.within_ofText text.toList (Pool.empty limits.maxConstants)
  have same : compile text xName yName limits = Prelexed.compile symbols text.toList limits := by
    rw [compile_of_ofNames bound, Prelexed.outcome_compileWith named]
  rw [same]
  refine ⟨rfl, given.closed within, ?_, ?_⟩
  · rintro cause ⟨closing, member, failed⟩
    obtain ⟨fault, refused⟩ := Prelexed.exists_error_of_mem named member failed
    have iff := (Prelexed.fails_reached named refused).eq_closing_iff named within given member
      failed
    rw [refused, Except.error.injEq, iff]
  · intro fault refused
    exact (Prelexed.fails_reached named refused).column_eq

/-- Of a text that is only a gap the end is looked at, behind the gap, but the fault has no
place. -/
theorem missing_expression_has_no_place :
    ¬ ∀ (symbols : SymbolTable) (fault : Fault),
      SymbolTable.ofNames "x" "y" = .ok symbols →
      compile "  " "x" "y" .standard = .error fault →
      fault.column = (Prelexed.reached symbols "  ".toList .standard).column := by
  intro h
  have places : (Span.nowhere : Span) = .point 2 := h _ (.plain .missingExpression) rfl rfl
  exact absurd places (by decide)

/-- In {lit}`sin(1.2.3` the literal is refused before a parenthesis is missed. -/
theorem compile_refused_literal :
    SymbolTable.ofNames "x" "" = .ok ⟨[⟨['x'], .x⟩]⟩ ∧
      (Prelexed.reached ⟨[⟨['x'], .x⟩]⟩ "sin(1.2.3".toList .standard).ahead = [] ∧
      compile "sin(1.2.3" "x" "" .standard = .error ⟨.badNumberFormat, ⟨4, 9⟩, ""⟩ := by
  have bound : SymbolTable.ofNames "x" "" = .ok ⟨[⟨['x'], .x⟩]⟩ := rfl
  have ahead : (Prelexed.reached ⟨[⟨['x'], .x⟩]⟩ "sin(1.2.3".toList .standard).ahead = [] := rfl
  have refused := (compile_eq_prelexed bound "sin(1.2.3" .standard).2.2.1
    ⟨.badNumberFormat, ⟨4, 9⟩, ""⟩
  exact ⟨bound, ahead, (refused ⟨_, .tail _ (.tail _ (.head _)), rfl⟩).mpr ahead⟩

end TapeCalc
