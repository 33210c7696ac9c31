import TapeCalc.Proofs.Compiler.Acceptance
import TapeCalc.Proofs.Descent.Coupling
import TapeCalc.Proofs.Descent.Exchange
import TapeCalc.Proofs.Lexer.Exchange

/-!
# Exchanging the names of a compilation

The two names of a compilation are given in an order, the name of the first variable in front.  With
the names in the other order a text is refused with the same fault or compiled to the same tape with
its variables exchanged, and then its value is that of the first program for exchanged values.

Both compilations ask the same lexer for their lexemes, and where one looks at a variable the other
looks at the other variable.  So their descents run side by side once the lexemes of the first have
their variables exchanged.

Main results:

- Theorem {lit}`Compiler.coupled_feed_exchanged`: the steps of both compilations.
- Theorem {lit}`exchanging_names_exchanges_variables`: what exchanging the names does.
-/

namespace TapeCalc

/-! ## Tapes with the same room -/

/-- Stacks that take equally many more values and report the same once they are full. -/
structure BoundedStack.SameRoom {α : Type} (left right : BoundedStack α) : Prop where
  room : right.room = left.room
  overflow : right.overflow = left.overflow

namespace Tape

variable {left right : Tape}

/-- Pushing a word each onto two tapes with the same room. -/
theorem couples_push_sameRoom (word word' : Word) (tapes : left.SameRoom right) :
    Action.Couples BoundedStack.SameRoom (fun _ => False) (BoundedStack.push word left)
      (BoundedStack.push word' right) := by
  rw [BoundedStack.push_eq, BoundedStack.push_eq, tapes.room, tapes.overflow]
  by_cases full : left.room = 0
  · rw [if_pos full, if_pos full]
    exact .fault
  · rw [if_neg full, if_neg full]
    exact .ok ⟨congrArg (· - 1) tapes.room, tapes.overflow⟩

/-- Planting the instruction that loads a constant on two tapes with the same room. -/
theorem couples_plantConstant_sameRoom (index : Nat) (tapes : left.SameRoom right) :
    Action.Couples BoundedStack.SameRoom (fun _ => False) (plantConstant index left)
      (plantConstant index right) := by
  refine (couples_push_sameRoom _ _ tapes).bind ?_
  intro _ mid mid' _ tapes
  by_cases word : index < UInt16.size
  · rw [if_pos word]
    exact couples_push_sameRoom _ _ tapes
  · rw [if_neg word]
    exact .fault

end Tape

/-! ## Two compilations side by side -/

namespace Compiler

variable {symbols symbols' : SymbolTable}

/-- Two compilations with one lexer and with the same room on their tapes.  Where one looks at a
variable the other looks at the other variable. -/
structure Exchanged (left right : Compiler) : Prop where
  lexer : right.lexer = left.lexer
  current : right.current = left.current.map Token.exchanged
  tape : left.tape.SameRoom right.tape

/-- Looking at the next lexeme in both compilations. -/
theorem couples_exchanged_advance (same : Lexer.FindsExchanged symbols symbols')
    {left right : Compiler} (lexer : right.lexer = left.lexer)
    (tapes : left.tape.SameRoom right.tape) :
    Action.Couples Exchanged (fun _ => False) (advance symbols left) (advance symbols' right) := by
  rw [advance_eq, advance_eq, lexer, Lexer.next_exchanged same]
  cases Lexer.next symbols left.lexer with
  | error fault lexer => exact .fault
  | ok token? lexer =>
    cases token? with
    | none => exact .ok ⟨rfl, rfl, tapes⟩
    | some token => exact .ok ⟨rfl, rfl, tapes⟩

/-- A step on each of the tapes. -/
theorem couples_exchanged_onTape {step step' : Action Tape Unit} {left right : Compiler}
    (states : Exchanged left right)
    (steps : Action.Couples BoundedStack.SameRoom (fun _ => False) (step left.tape)
      (step' right.tape)) :
    Action.Couples Exchanged (fun _ => False) (onTape step left) (onTape step' right) :=
  couples_onTape_of (congrArg Lexer.column states.lexer) steps
    (fun _ _ tapes => ⟨states.lexer, states.current, tapes⟩) fun _ => False.elim

/-- The steps of both compilations belong together, once the lexemes of the first have their
variables exchanged. -/
theorem coupled_feed_exchanged (same : Lexer.FindsExchanged symbols symbols') :
    (feed symbols).exchanged.Coupled (feed symbols') Exchanged (fun _ => False) where
  lawful := (lawful symbols).exchanged
  current states := states.current
  column states := congrArg Lexer.column states.lexer
  advance states _ := couples_exchanged_advance same states.lexer states.tape
  plant _ _ _ states :=
    couples_exchanged_onTape states (Tape.couples_push_sameRoom _ _ states.tape)
  plantConstant index _ _ states :=
    couples_exchanged_onTape states (Tape.couples_plantConstant_sameRoom index states.tape)

end Compiler

section Exchange

variable {symbols symbols' : SymbolTable} {text : List Char} {limits : Limits}

/-- A compilation that is refused over one table is refused over the other, and one that succeeds
leads to the same pool. -/
theorem outcome_exchanged (same : Lexer.FindsExchanged symbols symbols') (text : List Char)
    (limits : Limits) :
    (∃ fault, (compileWith symbols text limits).outcome = .error fault ∧
      (compileWith symbols' text limits).outcome = .error fault) ∨
    ∃ program program', (compileWith symbols text limits).outcome = .ok program ∧
      (compileWith symbols' text limits).outcome = .ok program' ∧ program'.pool = program.pool := by
  have first := Compiler.couples_exchanged_advance same
    (rfl : (Compiler.start text limits).lexer = (Compiler.start text limits).lexer) ⟨rfl, rfl⟩
  have runs := (Compiler.coupled_feed_exchanged same).whole (text.length + 1)
    (Nat.le_refl limits.maxDepth) (fun fewer => absurd fewer (Nat.lt_irrefl _)) first
  rw [Feed.whole_exchanged] at runs
  rcases outcomes_of_couples runs with
    ⟨fault, outcome, impossible | outcome'⟩ | ⟨reached, reached', states, outcome, outcome'⟩
  · exact impossible.elim
  · exact Or.inl ⟨fault, outcome, outcome'⟩
  · exact Or.inr ⟨_, _, outcome, outcome', congrArg Lexer.pool states.lexer⟩

/-- The tapes of both compilations differ by the variables only. -/
theorem Compiled.words_exchanged (same : Lexer.FindsExchanged symbols symbols')
    {lexemes lexemes' : List Lexeme} {program program' : Program}
    (compiled : Compiled symbols text limits lexemes program)
    (compiled' : Compiled symbols' text limits lexemes' program') :
    program'.words = exchangedWords program.words := by
  obtain ⟨last, _, yields⟩ := compiled.yields
  obtain ⟨last', _, yields'⟩ := compiled'.yields
  obtain ⟨expr, derives, _⟩ := compiled.fits
  obtain ⟨rfl, _⟩ := yields'.unique (yields.exchanged same)
  have derives' : Derives .expression (tokensOf (lexemes.map Lexeme.exchanged)) expr.exchanged := by
    rw [tokensOf_exchanged]
    exact derives.exchanged
  rw [compiled.code expr derives, compiled'.code expr.exchanged derives', Expr.code_exchanged]

end Exchange

/-! ## Names in the other order -/

/-- With the names in the other order a text is refused with the same fault, at the same range, or
it is compiled to the same pool and to the same tape with the variables exchanged.  The value of
the one program is the value of the other for exchanged values of the variables, and so is the
fault. -/
theorem exchanging_names_exchanges_variables (text xName yName : String) (limits : Limits) :
    (∃ fault, compile text xName yName limits = .error fault ∧
      compile text yName xName limits = .error fault) ∨
    ∃ program program', compile text xName yName limits = .ok program ∧
      compile text yName xName limits = .ok program' ∧ program'.pool = program.pool ∧
      program'.words = exchangedWords program.words ∧
      ∀ x y, program'.evaluate y x = program.evaluate x y := by
  cases bound : SymbolTable.ofNames xName yName with
  | error fault =>
    have bound' := SymbolTable.ofNames_error_comm bound
    refine Or.inl ⟨fault, ?_, ?_⟩
    · rw [compile, compilation, bound]
    · rw [compile, compilation, bound']
  | ok symbols =>
    cases bound' : SymbolTable.ofNames yName xName with
    | error fault => cases bound.symm.trans (SymbolTable.ofNames_error_comm bound')
    | ok symbols' =>
      have reachable := SymbolTable.reachable_of_ofNames bound
      have reachable' := SymbolTable.reachable_of_ofNames bound'
      have same : Lexer.FindsExchanged symbols symbols' := SymbolTable.lookup_exchanged
        (SymbolTable.exchangedIn_of_ofNames bound bound')
        (SymbolTable.exchangedIn_of_ofNames bound' bound)
        (SymbolTable.distinct_of_reachable reachable')
      rw [compile_of_ofNames bound, compile_of_ofNames bound']
      rcases outcome_exchanged same text.toList limits with
        refused | ⟨program, program', outcome, outcome', pool⟩
      · exact Or.inl refused
      · obtain ⟨lexemes, compiled⟩ := compiled_of_ok reachable.spelling_ne_nil outcome
        obtain ⟨lexemes', compiled'⟩ := compiled_of_ok reachable'.spelling_ne_nil outcome'
        have words := compiled.words_exchanged same compiled'
        have constants : program'.constants = program.constants :=
          congrArg BoundedStack.toList pool
        exact Or.inr ⟨program, program', outcome, outcome', pool, words,
          Program.evaluate_exchanged words constants⟩

end TapeCalc
