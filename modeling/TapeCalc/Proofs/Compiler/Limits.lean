import TapeCalc.Proofs.Compiler.Acceptance
import TapeCalc.Proofs.Descent.Coupling
import TapeCalc.Proofs.Expr.Unique
import TapeCalc.Proofs.Program.Spare

/-!
# Limits only cut off

A text is compiled under two limits, the second no smaller than the first in any component.
The two compilations do the same, step by step, until the first reports a limit that the
second has raised.  So only the fault of a limit can be different under a larger one, and
only where this very limit is larger.

A program uses a number of words, of constants and of levels.  Under smaller limits it is
compiled again if they allow what it uses, and otherwise the limit that is reported is one
that it really exceeds.

Main definitions:

- {lit}`FaultCode.limit?`: the limit that a fault reports.
- {lit}`Raised`: a fault of a limit that is larger in other limits.
- {lit}`SameOutcome`: two compilations with one result.

Main results:

- Theorem {lit}`raised_or_sameOutcome`: the only way in which two compilations differ.
- Theorem {lit}`limit_of_derives`: an expression is compiled or refused for a limit.
- Theorem {lit}`compile_under_smaller_limits`: what other limits change.
-/

namespace TapeCalc

/-! ## Limits and their faults -/

/-- Limits are no larger than others if none of the three is. -/
instance : LE Limits where
  le lower upper := lower.maxCodeLen ≤ upper.maxCodeLen ∧
    lower.maxConstants ≤ upper.maxConstants ∧ lower.maxDepth ≤ upper.maxDepth

/-- The limit that a fault reports. -/
def FaultCode.limit? : FaultCode → Option (Limits → Nat)
  | expressionTooLong => some Limits.maxCodeLen
  | tooManyConstants => some Limits.maxConstants
  | tooDeeplyNested => some Limits.maxDepth
  | _ => none

/-- Three faults report a limit. -/
theorem FaultCode.mem_of_limit? {code : FaultCode} {limit : Limits → Nat}
    (reported : code.limit? = some limit) :
    code ∈ [.expressionTooLong, .tooManyConstants, .tooDeeplyNested] := by
  cases code with
  | expressionTooLong | tooManyConstants | tooDeeplyNested => simp
  | _ => cases reported

/-- The fault reports a limit that is larger in the second limits. -/
def Raised (lower upper : Limits) (fault : Fault) : Prop :=
  ∃ limit, fault.code.limit? = some limit ∧ limit lower < limit upper

/-- Two compilations with one result: programs with the same words and the same constants, or one
fault with its range and its detail. -/
def SameOutcome : Except Fault Program → Except Fault Program → Prop
  | .ok program, .ok program' =>
    program.words = program'.words ∧ program.constants = program'.constants
  | .error fault, .error fault' => fault = fault'
  | _, _ => False

/-! ## Two compilations side by side -/

namespace Lexer

/-- A lexer beside one whose pool has spare places. -/
structure Spares (spare : Nat) (narrow wide : Lexer) : Prop where
  pool : BoundedStack.Spares spare .tooManyConstants narrow.pool wide.pool
  rest : wide.rest = narrow.rest
  position : wide.position = narrow.position
  column : wide.column = narrow.column

/-- Two lexers find the same, and only the place for a literal can be missing in the first. -/
theorem couples_next (symbols : SymbolTable) {spare : Nat} {narrow wide : Lexer}
    (h : Spares spare narrow wide) :
    Action.Couples (Spares spare) (BoundedStack.Spared spare .tooManyConstants)
      (next symbols narrow) (next symbols wide) := by
  have behindScan {pool pool' : Pool}
      (pools : BoundedStack.Spares spare .tooManyConstants pool pool') (scan : Scan) :
      Spares spare (behind scan pool) (behind scan pool') := ⟨pools, rfl, rfl, rfl⟩
  rw [next_eq, next_eq, h.rest, h.position]
  generalize scan symbols narrow.position narrow.rest = found
  simp only [keep]
  cases found.finding with
  | symbol token => exact .ok (behindScan h.pool found)
  | literal value =>
    have stores := Pool.couples_store value h.pool
    dsimp only
    cases stored : Pool.store value narrow.pool with
    | ok index pool =>
      rw [stored] at stores
      obtain ⟨pool', stored', pools⟩ := stores.of_ok
      rw [stored']
      exact .ok (behindScan pools found)
    | error fault pool =>
      rw [stored] at stores
      rcases stores.of_error with cutOff | ⟨pool', stored'⟩
      · exact .cut cutOff
      · rw [stored']
        exact .fault
  | finished => exact .ok (behindScan h.pool found)
  | fault code => exact .fault

end Lexer

namespace Compiler

variable {lower upper : Limits}

/-- Two compilations of a text that differ in the places they have left, by as much as their
limits differ. -/
structure Beside (lower upper : Limits) (narrow wide : Compiler) : Prop where
  tape : BoundedStack.Spares (upper.maxCodeLen - lower.maxCodeLen) .expressionTooLong
    narrow.tape wide.tape
  lexer : Lexer.Spares (upper.maxConstants - lower.maxConstants) narrow.lexer wide.lexer
  current : wide.current = narrow.current

/-- A tape with spare places is spared a fault that reports a smaller limit. -/
theorem raised_of_tape {fault : Fault}
    (h : BoundedStack.Spared (upper.maxCodeLen - lower.maxCodeLen) .expressionTooLong fault) :
    Raised lower upper fault :=
  ⟨_, by rw [h.2]; rfl, Nat.lt_of_sub_pos h.1⟩

/-- A pool with spare places is spared a fault that reports a smaller limit. -/
theorem raised_of_pool {fault : Fault}
    (h : BoundedStack.Spared (upper.maxConstants - lower.maxConstants) .tooManyConstants fault) :
    Raised lower upper fault :=
  ⟨_, by rw [h.2]; rfl, Nat.lt_of_sub_pos h.1⟩

/-- Looking at the next lexeme in both compilations. -/
theorem couples_advance (symbols : SymbolTable) {narrow wide : Compiler}
    (h : Beside lower upper narrow wide) :
    Action.Couples (Beside lower upper) (Raised lower upper) (advance symbols narrow)
      (advance symbols wide) := by
  have found := Lexer.couples_next symbols h.lexer
  rw [advance_eq, advance_eq]
  cases result : Lexer.next symbols narrow.lexer with
  | ok token? lexer =>
    rw [result] at found
    obtain ⟨lexer', result', lexers⟩ := found.of_ok
    rw [result']
    cases token? with
    | none => exact .ok ⟨h.tape, lexers, rfl⟩
    | some token => exact .ok ⟨h.tape, lexers, rfl⟩
  | error fault lexer =>
    rw [result] at found
    rcases found.of_error with cutOff | ⟨lexer', result'⟩
    · exact .cut (raised_of_pool cutOff)
    · rw [result']
      exact .fault

/-- A step on both tapes.  Its fault points at the same lexeme. -/
theorem couples_onTape {step : Action Tape Unit} {narrow wide : Compiler}
    (h : Beside lower upper narrow wide)
    (steps : Action.Couples
      (BoundedStack.Spares (upper.maxCodeLen - lower.maxCodeLen) .expressionTooLong)
      (BoundedStack.Spared (upper.maxCodeLen - lower.maxCodeLen) .expressionTooLong)
      (step narrow.tape) (step wide.tape)) :
    Action.Couples (Beside lower upper) (Raised lower upper) (onTape step narrow)
      (onTape step wide) :=
  couples_onTape_of h.lexer.column steps (fun _ _ tapes => ⟨tapes, h.lexer, h.current⟩)
    fun _ cutOff => raised_of_tape cutOff

/-- The steps of both compilations belong together. -/
theorem coupled_feed (symbols : SymbolTable) (lower upper : Limits) :
    (feed symbols).Coupled (feed symbols) (Beside lower upper) (Raised lower upper) where
  lawful := lawful symbols
  current h := h.current
  column h := h.lexer.column
  advance h _ := couples_advance symbols h
  plant opcode _ _ h := couples_onTape h (Tape.couples_plant opcode h.tape)
  plantConstant index _ _ h := couples_onTape h (Tape.couples_plantConstant index h.tape)

/-- Both compilations start in front of the text. -/
theorem beside_start (text : List Char) (le : lower ≤ upper) :
    Beside lower upper (start text lower) (start text upper) where
  tape := ⟨BoundedStack.empty_widened le.1 _, rfl⟩
  lexer := ⟨⟨BoundedStack.empty_widened le.2.1 _, rfl⟩, rfl, rfl, rfl⟩
  current := rfl

end Compiler

variable {symbols : SymbolTable} {text : List Char} {lower upper : Limits}

/-- Under larger limits the result is the same, unless the fault of a raised limit has cut off the
compilation under the smaller ones. -/
theorem raised_or_sameOutcome (symbols : SymbolTable) (text : List Char) (le : lower ≤ upper) :
    (∃ fault, (compileWith symbols text lower).outcome = .error fault ∧
      Raised lower upper fault) ∨
    SameOutcome (compileWith symbols text lower).outcome
      (compileWith symbols text upper).outcome := by
  have deeper (fewer : lower.maxDepth < upper.maxDepth) (fault : Fault)
      (code : fault.code = .tooDeeplyNested) : Raised lower upper fault :=
    ⟨_, by rw [code]; rfl, fewer⟩
  have first := Compiler.couples_advance symbols (Compiler.beside_start text le)
  have runs := (Compiler.coupled_feed symbols lower upper).whole (text.length + 1) le.2.2 deeper
    first
  rcases outcomes_of_couples runs with
    ⟨fault, outcome, raised | outcome'⟩ | ⟨reached, reached', states, outcome, outcome'⟩
  · exact Or.inl ⟨fault, outcome, raised⟩
  · rw [outcome, outcome']
    exact Or.inr rfl
  · rw [outcome, outcome']
    refine Or.inr ⟨?_, ?_⟩
    · simp [Compiler.program, Program.words, states.tape.wide]
    · simp [Compiler.program, Program.constants, states.lexer.pool.wide]

/-! ## Expressions are only refused for their limits -/

/-- A word that cannot be planted is refused for a limit. -/
theorem limit_of_blocked {first : Compiler} (tape : first.tape.overflow = .expressionTooLong)
    {words : List Word} {fault : Fault}
    (blocked : (Compiler.feed symbols).Blocked first words fault) :
    ∃ limit, fault.code.limit? = some limit := by
  obtain ⟨tokens, planted, mid, next, more, trace, declined, _⟩ := blocked
  have overflow := (Compiler.tape_of_trace trace).2.2.trans tape
  cases declined with
  | plant failed =>
    obtain ⟨cause, after, refused, code⟩ := Compiler.onTape_error failed
    rw [code, (Tape.plant_error refused).2, overflow]
    exact ⟨_, rfl⟩
  | plantConstant _ failed =>
    obtain ⟨cause, after, refused, code⟩ := Compiler.onTape_error failed
    rcases Tape.plantConstant_error refused with ⟨_, full⟩ | ⟨_, tooLarge⟩
    · rw [code, full, overflow]
      exact ⟨_, rfl⟩
    · rw [code, tooLarge]
      exact ⟨_, rfl⟩

/-- An expression whose values find a place is compiled or refused for a limit. -/
theorem limit_of_yields (named : ∀ symbol ∈ symbols.symbols, symbol.spelling ≠ [])
    {limits : Limits} {lexemes : List Lexeme} {last : Lexer} {expr : Expr}
    (yields : Lexer.Yields symbols (.ofText text (Pool.empty limits.maxConstants)) lexemes last)
    (derives : Derives .expression (tokensOf lexemes) expr) {fault : Fault}
    (failed : (compileWith symbols text limits).outcome = .error fault) :
    ∃ limit, fault.code.limit? = some limit := by
  obtain ⟨first, empty, _, reaches⟩ := reaches_of_yields named yields derives
  rw [outcome_compileWith] at failed
  generalize Descent.whole (Compiler.feed symbols) (text.length + 1) limits.maxDepth
    (.start text limits) = result at reaches failed
  cases reaches with
  | through _ ended =>
    rw [ended.1] at failed
    cases failed
  | cut cut =>
    cases failed
    rcases cut with blocked | ⟨code, _⟩
    · exact limit_of_blocked (by rw [empty]; rfl) blocked
    · rw [code]
      exact ⟨_, rfl⟩

/-- A text whose lexemes form an expression is compiled or refused for a limit. -/
theorem limit_of_derives (named : ∀ symbol ∈ symbols.symbols, symbol.spelling ≠ [])
    {limits : Limits} {lexemes : List Lexeme} {expr : Expr}
    (read : lex symbols text = .ok lexemes)
    (derives : Derives .expression (tokensOf lexemes) expr) {fault : Fault}
    (failed : (compileWith symbols text limits).outcome = .error fault) :
    ∃ limit, fault.code.limit? = some limit := by
  -- With more places for constants all values find one.
  obtain ⟨last, yields⟩ := (lex_eq_ok_iff named).mp read
  have few := yields.size_le_length named
  rw [size_pool_of_yields yields] at few
  let roomy := { limits with maxConstants := max limits.maxConstants text.length }
  have le : limits ≤ roomy := ⟨Nat.le_refl _, Nat.le_max_left _ _, Nat.le_refl _⟩
  have placed := (exists_yields_iff named roomy.maxConstants).mpr
    ⟨read, Nat.le_trans few (Nat.le_max_right _ _)⟩
  obtain ⟨last', yields'⟩ := placed
  rcases raised_or_sameOutcome symbols text le with ⟨fault', failed', limit, reported, _⟩ | same
  · cases failed.symm.trans failed'
    exact ⟨limit, reported⟩
  · rw [failed] at same
    cases outcome : (compileWith symbols text roomy).outcome with
    | ok program =>
      rw [outcome] at same
      exact same.elim
    | error fault' =>
      rw [outcome] at same
      obtain rfl : fault = fault' := same
      exact limit_of_yields named yields' derives outcome

/-! ## What a program uses -/

/-- The limits that a program and the depth of its expression use up. -/
def Program.usage (program : Program) (expr : Expr) : Limits :=
  ⟨program.words.length, program.constants.length, expr.depth⟩

namespace Compiled

variable {limits : Limits} {lexemes : List Lexeme} {program : Program} {expr : Expr}

/-- The lexemes of a program are those of its text, and their values are within the limits. -/
theorem lex_eq (h : Compiled symbols text limits lexemes program)
    (named : ∀ symbol ∈ symbols.symbols, symbol.spelling ≠ []) :
    lex symbols text = .ok lexemes ∧
      (literalValues text lexemes).eraseDups.length ≤ limits.maxConstants := by
  obtain ⟨last, _, yields⟩ := h.yields
  exact (exists_yields_iff named limits.maxConstants).mp ⟨last, yields⟩

/-- The constants of a program are the values of the literals, each once. -/
theorem constants_eq (h : Compiled symbols text limits lexemes program) :
    program.constants = (literalValues text lexemes).eraseDups := by
  obtain ⟨last, pool, yields⟩ := h.yields
  rw [Program.constants, pool, toList_pool_of_yields yields]

/-- A program has a word for every word that its expression takes. -/
theorem length_words (h : Compiled symbols text limits lexemes program)
    (derives : Derives .expression (tokensOf lexemes) expr) :
    program.words.length = expr.codeLength := by
  rw [h.code expr derives, Expr.length_code]

/-- The limits of a compilation allow what its program uses. -/
theorem usage_le (h : Compiled symbols text limits lexemes program)
    (named : ∀ symbol ∈ symbols.symbols, symbol.spelling ≠ [])
    (derives : Derives .expression (tokensOf lexemes) expr) : program.usage expr ≤ limits := by
  obtain ⟨expr', derives', fits⟩ := h.fits
  obtain ⟨_, few⟩ := h.lex_eq named
  cases derives.unique derives'
  refine ⟨?_, ?_, fits.depth⟩
  · exact (h.length_words derives).trans_le fits.codeLength
  · exact (congrArg List.length h.constants_eq).trans_le few

/-- Limits that allow what a program uses lead to a program. -/
theorem ok_of_usage_le (h : Compiled symbols text upper lexemes program)
    (named : ∀ symbol ∈ symbols.symbols, symbol.spelling ≠ [])
    (derives : Derives .expression (tokensOf lexemes) expr) (fits : program.usage expr ≤ limits) :
    ∃ same, (compileWith symbols text limits).outcome = .ok same := by
  obtain ⟨codeLength, constants, depth⟩ := fits
  obtain ⟨read, _⟩ := h.lex_eq named
  have few : (literalValues text lexemes).eraseDups.length ≤ limits.maxConstants := by
    rw [← h.constants_eq]
    exact constants
  have short : expr.codeLength ≤ limits.maxCodeLen := by
    rw [← h.length_words derives]
    exact codeLength
  obtain ⟨last', yields'⟩ := (exists_yields_iff named limits.maxConstants).mpr ⟨read, few⟩
  exact ok_of_fits named yields' derives ⟨short, depth⟩ h.indices

end Compiled

/-- The limits that are as large as the upper ones but for the limit that a fault reports. -/
def Limits.lowered (code : FaultCode) (lower upper : Limits) : Limits where
  maxCodeLen := if code = .expressionTooLong then lower.maxCodeLen else upper.maxCodeLen
  maxConstants := if code = .tooManyConstants then lower.maxConstants else upper.maxConstants
  maxDepth := if code = .tooDeeplyNested then lower.maxDepth else upper.maxDepth

/-- The one limit that has been lowered is none that has been raised. -/
theorem not_raised_lowered (lower upper : Limits) (fault : Fault) :
    ¬ Raised lower (Limits.lowered fault.code lower upper) fault := by
  rintro ⟨limit, reported, larger⟩
  cases code : fault.code <;> rw [code] at reported <;> cases reported <;>
    simp [Limits.lowered, code] at larger

/-- What limits allow is allowed with one of them lowered, unless it exceeds this one. -/
theorem le_lowered {code : FaultCode} {limit : Limits → Nat} (reported : code.limit? = some limit)
    {used : Limits} (le : used ≤ upper) (within : limit used ≤ limit lower) :
    used ≤ Limits.lowered code lower upper := by
  obtain ⟨codeLength, constants, depth⟩ := le
  cases code <;> cases reported
  · exact ⟨within, constants, depth⟩
  · exact ⟨codeLength, within, depth⟩
  · exact ⟨codeLength, constants, within⟩

/-- Lowering one limit leads to limits that are no smaller than the lower ones. -/
theorem le_lower_lowered (code : FaultCode) (le : lower ≤ upper) :
    lower ≤ Limits.lowered code lower upper := by
  obtain ⟨codeLength, constants, depth⟩ := le
  refine ⟨?_, ?_, ?_⟩ <;> dsimp only [Limits.lowered] <;> split <;> omega

namespace Compiled

variable {lexemes : List Lexeme} {program : Program} {expr : Expr}

/-- Smaller limits that allow what a program uses lead to the same program. -/
theorem sameOutcome_of_usage_le (h : Compiled symbols text upper lexemes program)
    (named : ∀ symbol ∈ symbols.symbols, symbol.spelling ≠ [])
    (outcome : (compileWith symbols text upper).outcome = .ok program)
    (derives : Derives .expression (tokensOf lexemes) expr) (le : lower ≤ upper)
    (fits : program.usage expr ≤ lower) :
    SameOutcome (compileWith symbols text lower).outcome (.ok program) := by
  obtain ⟨same, succeeded⟩ := h.ok_of_usage_le named derives fits
  rcases raised_or_sameOutcome symbols text le with ⟨fault, failed, _⟩ | agrees
  · cases succeeded.symm.trans failed
  · rwa [outcome] at agrees

/-- Programs of one text use the same. -/
theorem usage_eq {limits : Limits} {lexemes' : List Lexeme} {program' : Program}
    (h : Compiled symbols text upper lexemes program)
    (h' : Compiled symbols text limits lexemes' program')
    (named : ∀ symbol ∈ symbols.symbols, symbol.spelling ≠ [])
    (derives : Derives .expression (tokensOf lexemes) expr) :
    lexemes' = lexemes ∧ program'.usage expr = program.usage expr := by
  cases (h.lex_eq named).1.symm.trans (h'.lex_eq named).1
  have words : program'.words.length = program.words.length := by
    rw [h'.length_words derives, h.length_words derives]
  have constants : program'.constants = program.constants := by
    rw [h'.constants_eq, h.constants_eq]
  exact ⟨rfl, by rw [Program.usage, Program.usage, words, constants]⟩

/-- Limits that do not allow what a program uses lead to a fault. -/
theorem error_of_not_usage_le {limits : Limits} (h : Compiled symbols text upper lexemes program)
    (named : ∀ symbol ∈ symbols.symbols, symbol.spelling ≠ [])
    (derives : Derives .expression (tokensOf lexemes) expr)
    (exceeding : ¬ program.usage expr ≤ limits) :
    ∃ fault, (compileWith symbols text limits).outcome = .error fault := by
  cases result : (compileWith symbols text limits).outcome with
  | error fault => exact ⟨fault, rfl⟩
  | ok same =>
    obtain ⟨lexemes', compiled⟩ := compiled_of_ok named result
    obtain ⟨rfl, used⟩ := h.usage_eq compiled named derives
    have fits := compiled.usage_le named derives
    rw [used] at fits
    exact absurd fits exceeding

/-- A fault under smaller limits reports a limit that the program really exceeds. -/
theorem exceeds (h : Compiled symbols text upper lexemes program)
    (named : ∀ symbol ∈ symbols.symbols, symbol.spelling ≠ [])
    (outcome : (compileWith symbols text upper).outcome = .ok program)
    (derives : Derives .expression (tokensOf lexemes) expr) (le : lower ≤ upper) {fault : Fault}
    (failed : (compileWith symbols text lower).outcome = .error fault) :
    ∃ limit, fault.code.limit? = some limit ∧ limit lower < limit (program.usage expr) := by
  have raised : Raised lower upper fault := by
    rcases raised_or_sameOutcome symbols text le with ⟨fault', failed', raised⟩ | same
    · cases failed.symm.trans failed'
      exact raised
    · rw [failed, outcome] at same
      exact same.elim
  obtain ⟨limit, reported, _⟩ := raised
  refine ⟨limit, reported, Nat.lt_of_not_le ?_⟩
  intro within
  -- With the other two limits raised the fault would stay, although they allow the program.
  have fits := le_lowered reported (h.usage_le named derives) within
  obtain ⟨same, succeeded⟩ := h.ok_of_usage_le named derives fits
  rcases raised_or_sameOutcome symbols text (le_lower_lowered fault.code le) with
    ⟨fault', failed', raised⟩ | same
  · cases failed.symm.trans failed'
    exact not_raised_lowered lower upper fault raised
  · rw [failed, succeeded] at same
    exact same.elim

end Compiled

/-! ## Limits of a text -/

/-- Under smaller limits a compilation leads to the same program or the same fault, unless it
reports a limit.  If the larger limits lead to a program, the smaller ones lead to the same if they
allow its words, its constants and the depth of its expression, and otherwise to the fault of a
limit that one of these really exceeds. -/
theorem compile_under_smaller_limits (text xName yName : String) {lower upper : Limits}
    (le : lower ≤ upper) :
    ((∀ fault, compile text xName yName lower = .error fault → fault.code.limit? = none) →
      SameOutcome (compile text xName yName lower) (compile text xName yName upper)) ∧
    ∀ program, compile text xName yName upper = .ok program →
      ∃ symbols lexemes, SymbolTable.ofNames xName yName = .ok symbols ∧
        lex symbols text.toList = .ok lexemes ∧
        (∃ expr, Derives .expression (tokensOf lexemes) expr) ∧
        ∀ expr, Derives .expression (tokensOf lexemes) expr →
          (program.usage expr ≤ lower →
            SameOutcome (compile text xName yName lower) (.ok program)) ∧
          (¬ program.usage expr ≤ lower →
            ∃ fault limit, compile text xName yName lower = .error fault ∧
              fault.code.limit? = some limit ∧ limit lower < limit (program.usage expr)) := by
  cases bound : SymbolTable.ofNames xName yName with
  | error fault =>
    have failed (limits : Limits) : compile text xName yName limits = .error fault := by
      rw [compile, compilation, bound]
    refine ⟨?_, ?_⟩
    · intro _
      rw [failed, failed]
      rfl
    · intro program compiled
      cases (failed upper).symm.trans compiled
  | ok symbols =>
    have named := (SymbolTable.reachable_of_ofNames bound).spelling_ne_nil
    simp only [compile_of_ofNames bound]
    refine ⟨?_, ?_⟩
    · intro unlimited
      rcases raised_or_sameOutcome symbols text.toList le with ⟨fault, failed, raised⟩ | same
      · obtain ⟨limit, reported, _⟩ := raised
        rw [unlimited fault failed] at reported
        cases reported
      · exact same
    · intro program outcome
      obtain ⟨lexemes, compiled⟩ := compiled_of_ok named outcome
      obtain ⟨expr, derives, _⟩ := compiled.fits
      refine ⟨symbols, lexemes, rfl, (compiled.lex_eq named).1, ⟨expr, derives⟩, ?_⟩
      intro expr derives
      refine ⟨compiled.sameOutcome_of_usage_le named outcome derives le, ?_⟩
      intro exceeding
      obtain ⟨fault, failed⟩ := compiled.error_of_not_usage_le named derives exceeding
      obtain ⟨limit, exceeded⟩ := compiled.exceeds named outcome derives le failed
      exact ⟨fault, limit, failed, exceeded⟩

/-- With one place for constants the text {lit}`1+2` is refused for its second literal, while the
fault of {lit}`1+` stays what it is. -/
theorem compile_with_one_constant :
    (⟨5, 1, 0⟩ : Limits) ≤ .standard ∧
      compile "1+" "x" "y" .standard = .error ⟨.syntaxError, ⟨2, 2⟩, "EXPECTED OPERAND"⟩ ∧
      ∃ program expr fault limit, compile "1+2" "x" "y" .standard = .ok program ∧
        compile "1+2" "x" "y" ⟨5, 1, 0⟩ = .error fault ∧ fault.code.limit? = some limit ∧
        limit ⟨5, 1, 0⟩ < limit (program.usage expr) := by
  have le : (⟨5, 1, 0⟩ : Limits) ≤ .standard := ⟨by decide, by decide, by decide⟩
  have unfinished : compile "1+" "x" "y" ⟨5, 1, 0⟩ =
      .error ⟨.syntaxError, ⟨2, 2⟩, "EXPECTED OPERAND"⟩ := rfl
  have stays := (compile_under_smaller_limits "1+" "x" "y" le).1 fun fault failed => by
    cases unfinished.symm.trans failed
    rfl
  rw [unfinished] at stays
  have counted : (compile "1+2" "x" "y" .standard).toOption.map
      (fun program => program.constants.length) = some 2 := by decide +kernel
  refine ⟨le, ?_, ?_⟩
  · cases result : compile "1+" "x" "y" .standard with
    | ok program =>
      rw [result] at stays
      exact stays.elim
    | error fault =>
      rw [result] at stays
      exact congrArg Except.error stays.symm
  · cases compiled : compile "1+2" "x" "y" .standard with
    | error fault =>
      rw [compiled] at counted
      cases counted
    | ok program =>
      rw [compiled] at counted
      have two : program.constants.length = 2 := Option.some.inj counted
      obtain ⟨_, _, _, _, ⟨expr, derives⟩, uses⟩ :=
        (compile_under_smaller_limits "1+2" "x" "y" le).2 program compiled
      have exceeding : ¬ program.usage expr ≤ ⟨5, 1, 0⟩ := by
        intro fits
        have few : program.constants.length ≤ 1 := fits.2.1
        omega
      obtain ⟨fault, limit, failed, exceeded⟩ := (uses expr derives).2 exceeding
      exact ⟨program, expr, fault, limit, rfl, failed, exceeded⟩

end TapeCalc
