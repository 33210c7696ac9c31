import TapeCalc.Command.Session
import TapeCalc.Proofs.Compiler.Correctness

/-!
# Who is to blame for a fault

Only names that clash make the calculator itself fail.  Every other fault of a compilation
is one of the text, and every fault of a compiled program is one of its evaluation.

Main definitions:

- {lit}`textFaults`: the codes of the faults of a text with a lexeme in it.
- {lit}`Compiler.Sound`: what a compilation keeps while it reads its text.

Main results:

- Theorem {lit}`kind_of_compileWith_error`: with names that bind, a compilation only
  fails because of the text.
- Theorem {lit}`internal_iff_namesClash`: when the calculator itself fails.
-/

namespace TapeCalc

/-! ## Faults of the text -/

/-- The codes of the faults that a text with a lexeme in it can lead to: those of its lexemes, those
of the grammar, and those of the tape and the pool. -/
def textFaults : List FaultCode :=
  lexicalFaults ++ Feed.grammarFaults ++ [.tooManyConstants, .expressionTooLong]

/-- These are faults of the text. -/
theorem kind_of_textFaults : ∀ code ∈ textFaults, code.kind = .parse := by decide

/-- Going past a lexeme keeps the code that a full pool reports. -/
theorem Lexer.Takes.overflow {symbols : SymbolTable} {text : List Char} {before after : Lexer}
    {token : Token} (h : Takes symbols text before after token) :
    after.pool.overflow = before.pool.overflow := by
  cases h with
  | symbol _ _ same => rw [same]
  | literal _ _ _ stored => exact Pool.overflow_of_store stored

namespace Compiler

variable {symbols : SymbolTable} {text : List Char}

/-- A compilation of a text: it stands in the text, and what it can run out of has the code of a
limit. -/
structure Sound (text : List Char) (state : Compiler) : Prop where
  within : state.lexer.Within text
  pool : state.lexer.pool.overflow = .tooManyConstants
  tape : state.tape.overflow = .expressionTooLong

/-- A compilation starts in front of its text. -/
theorem sound_start (text : List Char) (limits : Limits) : (start text limits).Sound text :=
  ⟨Lexer.within_ofText _ _, rfl, rfl⟩

/-- Looking at the next lexeme keeps a compilation sound, or fails because of the text. -/
theorem Sound.advance (symbols : SymbolTable) {before : Compiler} (h : before.Sound text) :
    match advance symbols before with
    | .ok () after => after.Sound text
    | .error fault _ => fault.code ∈ textFaults := by
  have step := Lexer.next_cases symbols h.within
  rw [advance_eq]
  cases result : Lexer.next symbols before.lexer with
  | error fault lexer =>
    rw [result] at step
    rcases step with lexical | ⟨_, full⟩
    · exact List.mem_append_left _ (List.mem_append_left _ lexical)
    · change fault.code ∈ textFaults
      rw [full.trans h.pool]
      decide
  | ok token? lexer =>
    rw [result] at step
    cases token? with
    | none =>
      obtain ⟨within, same⟩ := step
      exact ⟨within, (congrArg BoundedStack.overflow same).trans h.pool, h.tape⟩
    | some token =>
      exact ⟨step.within, step.takes.overflow.trans h.pool, h.tape⟩

/-- Going past a lexeme keeps a compilation sound. -/
theorem Sound.of_advance_ok {before after : Compiler} (h : before.Sound text)
    (moved : (feed symbols).advance before = .ok () after) : after.Sound text := by
  have step := h.advance symbols
  rw [show Compiler.advance symbols before = .ok () after from moved] at step
  exact step

/-- A lexeme that cannot be read is the fault of the text. -/
theorem Sound.of_advance_error {before after : Compiler} {fault : Fault} (h : before.Sound text)
    (failed : (feed symbols).advance before = .error fault after) : fault.code ∈ textFaults := by
  have step := h.advance symbols
  rw [show Compiler.advance symbols before = .error fault after from failed] at step
  exact step

/-- A change of the tape alone keeps a compilation sound. -/
theorem Sound.onTape {before : Compiler} (h : before.Sound text) {tape : Tape}
    (kept : tape.overflow = before.tape.overflow) : { before with tape }.Sound text :=
  ⟨h.within, h.pool, kept.trans h.tape⟩

/-- A compilation stays sound along a trace. -/
theorem Sound.trace {first last : Compiler} {tokens : List Token} {words : List Word}
    (h : first.Sound text) (trace : (feed symbols).Trace first tokens words last) :
    last.Sound text := by
  induction trace with
  | refl state => exact h
  | advance _ moved _ ih => exact ih (h.of_advance_ok moved)
  | plant planted _ ih =>
    have kept := (tape_of_trace (.plant planted (.refl _))).2.2
    obtain ⟨tape, _, rfl⟩ := onTape_ok planted
    exact ih (h.onTape kept)
  | plantConstant looking planted _ ih =>
    have kept := (tape_of_trace (.plantConstant looking planted (.refl _))).2.2
    obtain ⟨tape, _, rfl⟩ := onTape_ok planted
    exact ih (h.onTape kept)

/-- What a sound compilation refuses is the fault of the text. -/
theorem Sound.refuses {before after : Compiler} {fault : Fault} (h : before.Sound text)
    (refused : (feed symbols).Refuses before fault after) : fault.code ∈ textFaults := by
  have limit : before.tape.overflow ∈ textFaults := by
    rw [h.tape]
    decide
  cases refused with
  | advance _ failed => exact h.of_advance_error failed
  | plant failed =>
    obtain ⟨cause, tape, refused, code⟩ := onTape_error failed
    rw [code, (Tape.plant_error refused).2]
    exact limit
  | plantConstant _ failed =>
    obtain ⟨cause, tape, refused, code⟩ := onTape_error failed
    rw [code]
    rcases Tape.plantConstant_error refused with ⟨_, rfl⟩ | ⟨_, rfl⟩
    · exact limit
    · decide
  | grammar found => exact List.mem_append_left _ (List.mem_append_right _ found)

/-- Where a sound compilation gets stuck, it is the fault of the text. -/
theorem Sound.stuck {first after : Compiler} {fault : Fault} (h : first.Sound text)
    (stuck : (feed symbols).Stuck first fault after) : fault.code ∈ textFaults := by
  obtain ⟨_, _, mid, trace, refused⟩ := stuck
  exact (h.trace trace).refuses refused

end Compiler

/-- With names that bind, a compilation fails for the lack of a lexeme or with a fault that a text
with a lexeme in it can lead to. -/
theorem missing_or_mem_textFaults {symbols : SymbolTable} {text : List Char} {limits : Limits}
    {fault : Fault} (h : (compileWith symbols text limits).outcome = .error fault) :
    fault = .plain .missingExpression ∨ fault.code ∈ textFaults := by
  have sound := Compiler.sound_start text limits
  have ends := Feed.whole_cases (Compiler.lawful symbols) (text.length + 1) limits.maxDepth
    (.start text limits)
  rw [outcome_compileWith] at h
  cases result : Descent.whole (Compiler.feed symbols) (text.length + 1) limits.maxDepth
      (.start text limits) with
  | ok _ reached =>
    rw [result] at h
    cases h
  | error cause reached =>
    rw [result] at h ends
    cases h
    rcases ends with failed | ⟨first, moved, ⟨rfl, _⟩ | stuck⟩
    · exact Or.inr (sound.of_advance_error failed)
    · exact Or.inl rfl
    · exact Or.inr ((sound.of_advance_ok moved).stuck stuck)

/-- With names that bind, a compilation only fails because of the text. -/
theorem kind_of_compileWith_error {symbols : SymbolTable} {text : List Char} {limits : Limits}
    {fault : Fault} (h : (compileWith symbols text limits).outcome = .error fault) :
    fault.kind = .parse := by
  rcases missing_or_mem_textFaults h with rfl | found
  · rfl
  · exact kind_of_textFaults _ found

/-- A program that a text has been compiled to is only stopped by its evaluation. -/
theorem Compiled.kind_of_evaluate_error {symbols : SymbolTable} {text : List Char} {limits : Limits}
    {lexemes : List Lexeme} {program : Program} (h : Compiled symbols text limits lexemes program)
    {x y : Float} {fault : Fault} (failed : program.evaluate x y = .error fault) :
    fault.kind = .evaluation := by
  obtain ⟨expr, derives, _⟩ := h.fits
  rw [h.evaluate_eq derives] at failed
  exact Expr.kind_of_evaluate_error failed

/-! ## Names that clash -/

/-- What a compilation can lead to: names that clash and the fault that reports them, a fault of
the text, or a program that only its evaluation can stop. -/
inductive Blames (text xName yName : String) (limits : Limits) : Prop where
  | names (clash : NamesClash xName yName)
      (failed : compile text xName yName limits = .error (.plain .duplicateSymbol))
  | text (binds : ¬ NamesClash xName yName) {fault : Fault}
      (failed : compile text xName yName limits = .error fault) (kind : fault.kind = .parse)
  | evaluation (binds : ¬ NamesClash xName yName) {program : Program}
      (compiled : compile text xName yName limits = .ok program)
      (kind : ∀ x y fault, program.evaluate x y = .error fault → fault.kind = .evaluation)

/-- One of these is what a compilation leads to. -/
theorem blames_compile (text xName yName : String) (limits : Limits) :
    Blames text xName yName limits := by
  cases bound : SymbolTable.ofNames xName yName with
  | error fault =>
    obtain ⟨rfl, clash⟩ := SymbolTable.ofNames_eq_error_iff.mp bound
    exact .names clash (by rw [compile, compilation, bound])
  | ok symbols =>
    have binds : ¬ NamesClash xName yName := by
      intro clash
      rw [SymbolTable.ofNames_eq_error_iff.mpr ⟨rfl, clash⟩] at bound
      cases bound
    have compiles := compile_of_ofNames bound text limits
    cases outcome : (compileWith symbols text.toList limits).outcome with
    | error fault =>
      exact .text binds (compiles.trans outcome) (kind_of_compileWith_error outcome)
    | ok program =>
      obtain ⟨lexemes, compiled⟩ :=
        compiled_of_ok (SymbolTable.reachable_of_ofNames bound).spelling_ne_nil outcome
      exact .evaluation binds (compiles.trans outcome)
        fun x y fault failed => compiled.kind_of_evaluate_error failed

/-! ## The status of a session -/

/-- The status of a fault is two if and only if the calculator itself has failed. -/
theorem Fault.status_eq_two {fault : Fault} : fault.status = 2 ↔ fault.kind = .internal := by
  rw [status]
  cases fault.kind <;> decide

/-- What a program leads to decides the status of a session with one expression. -/
theorem status_ofExpression (options : Options) (text : String) :
    (Transcript.ofExpression options text).status =
      match compile text options.xName options.yName options.limits with
      | .error fault => fault.status
      | .ok program =>
        match program.evaluate options.x options.y with
        | .error fault => fault.status
        | .ok _ => statusOk := by
  simp only [Transcript.ofExpression, Evaluation.of, compile, Evaluation.status, Program.evaluate]
  cases (compilation text options.xName options.yName options.limits).outcome with
  | error fault => rfl
  | ok program =>
    dsimp only
    cases (program.run options.x options.y).outcome <;> rfl

/-- A session with one expression ends with status two exactly when the names of its options
clash. -/
theorem status_ofExpression_eq_two (options : Options) (text : String) :
    (Transcript.ofExpression options text).status = 2 ↔
      NamesClash options.xName options.yName := by
  rw [status_ofExpression]
  cases blames_compile text options.xName options.yName options.limits with
  | names clash failed =>
    rw [failed]
    exact iff_of_true rfl clash
  | text binds failed kind =>
    rw [failed]
    exact iff_of_false (fun two => by simp [Fault.status_eq_two.mp two] at kind) binds
  | @evaluation binds program compiled kind =>
    rw [compiled]
    dsimp only
    cases evaluated : program.evaluate options.x options.y with
    | ok value => exact iff_of_false (by simp [statusOk]) binds
    | error fault =>
      have raised := kind _ _ _ evaluated
      exact iff_of_false (fun two => by simp [Fault.status_eq_two.mp two] at raised) binds

/-- The calculator itself fails exactly when its names clash, whatever the text is.  Otherwise it
reports a fault of the text, or leads to a program that only its evaluation can stop.  So a request
for one expression is answered with status two exactly when its names clash. -/
theorem internal_iff_namesClash (text xName yName : String) (limits : Limits) :
    ((∃ fault, compile text xName yName limits = .error fault ∧ fault.kind = .internal) ↔
      NamesClash xName yName) ∧
    (NamesClash xName yName ∨
      (∃ fault, compile text xName yName limits = .error fault ∧ fault.kind = .parse) ∨
      ∃ program, compile text xName yName limits = .ok program ∧ ∀ x y,
        (∃ value, program.evaluate x y = .ok value) ∨
        ∃ fault, program.evaluate x y = .error fault ∧ fault.kind = .evaluation) ∧
    ∀ (options : Options) (contents : FileContents),
      ((Request.calculate { options with source := .expression text, xName, yName }).respond
        contents).status = 2 ↔ NamesClash xName yName := by
  have status (options : Options) (contents : FileContents) :
      ((Request.calculate { options with source := .expression text, xName, yName }).respond
        contents).status = 2 ↔ NamesClash xName yName :=
    status_ofExpression_eq_two { options with source := .expression text, xName, yName } text
  cases blames_compile text xName yName limits with
  | names clash failed => exact ⟨iff_of_true ⟨_, failed, rfl⟩ clash, Or.inl clash, status⟩
  | @text binds fault failed kind =>
    refine ⟨iff_of_false ?_ binds, Or.inr (Or.inl ⟨fault, failed, kind⟩), status⟩
    rintro ⟨other, failed', internal⟩
    cases failed.symm.trans failed'
    simp [kind] at internal
  | @evaluation binds program compiled kind =>
    refine ⟨iff_of_false ?_ binds, Or.inr (Or.inr ⟨program, compiled, fun x y => ?_⟩), status⟩
    · rintro ⟨other, failed, _⟩
      cases compiled.symm.trans failed
    · cases evaluated : program.evaluate x y with
      | ok value => exact Or.inl ⟨value, rfl⟩
      | error fault => exact Or.inr ⟨fault, rfl, kind x y fault evaluated⟩

end TapeCalc
