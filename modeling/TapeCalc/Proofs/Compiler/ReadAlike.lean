import TapeCalc.Proofs.Compiler.Faults
import TapeCalc.Proofs.Descent.Coupling
import TapeCalc.Proofs.Descent.Rounds
import TapeCalc.Proofs.Lexer.ReadAlike
import TapeCalc.Proofs.Lexer.Tiling

/-!
# Texts that are read alike

Two texts whose lexers read alike are compiled alike: to the same program, or to faults that
differ by a change of ranges only.

The two texts need not have the same length, so neither do their numbers of rounds agree.  But
each lexeme takes at least one character, and so both compilations do what they do with any
larger number of rounds.

Main definitions:

- {lit}`Fault.relocated`: a fault whose lexeme stands at another range.

Main results:

- Theorem {lit}`Compiler.whole_rounds`: a compilation with more rounds.
- Theorem {lit}`Lexer.ReadAlike.outcome_eq`: texts that are read alike are compiled alike.
-/

namespace TapeCalc

/-- The fault when the lexemes stand at other ranges.  Only a fault of a text with a lexeme in it
points at a lexeme. -/
def Fault.relocated (change : Span → Span) (fault : Fault) : Fault :=
  if fault.code ∈ textFaults then fault.inColumn (change fault.column) else fault

/-! ## Rounds of a compilation -/

namespace Lexer

/-- A scan does not add to what is left. -/
theorem length_rest_scan_le (symbols : SymbolTable) (position : Nat) (rest : List Char) :
    (scan symbols position rest).rest.length ≤ rest.length := by
  have moved := Gap.le_position_scan position none rest
  have length := Gap.position_scan position none rest
  have gap : (Gap.scan position none rest).rest.length ≤ rest.length := by omega
  have taken (length : Nat) (finding : Finding) :
      ((Gap.scan position none rest).taken length finding).rest.length ≤ rest.length := by
    rw [Gap.taken, List.length_drop]
    omega
  rw [scan]
  split
  · exact gap
  · split
    · exact taken _ _
    · split
      · exact taken _ _
      · split
        · exact taken _ _
        · exact gap

end Lexer

namespace Compiler

variable {symbols : SymbolTable}

/-- How much a compilation has in front of it: the characters that are left, and one more if a
lexeme is looked at. -/
def size (state : Compiler) : Nat :=
  state.lexer.rest.length + if state.current.isSome then 1 else 0

/-- Behind its next step a compilation has no more in front of it than the characters that were
left. -/
theorem size_le_of_advance (named : ∀ symbol ∈ symbols.symbols, symbol.spelling ≠ [])
    {before after : Compiler} (moved : advance symbols before = .ok () after) :
    after.size ≤ before.lexer.rest.length := by
  rw [advance_eq] at moved
  cases result : Lexer.next symbols before.lexer with
  | error fault lexer =>
    rw [result] at moved
    cases moved
  | ok token? lexer =>
    rw [result] at moved
    cases token? with
    | none =>
      cases moved
      have kept := result
      rw [Lexer.next_eq, Lexer.keep, Lexer.finished_of_keep (Lexer.next_eq _ _ ▸ result)] at kept
      cases kept
      exact Lexer.length_rest_scan_le _ _ _
    | some token =>
      cases moved
      obtain ⟨tile, whole, begins, _⟩ := Lexer.exists_begins_of_next named result
      have word := List.length_pos_iff.mpr (begins.spells.word_ne_nil named)
      have length := congrArg List.length whole
      rw [List.length_append, List.length_append] at length
      change lexer.rest.length + 1 ≤ before.lexer.rest.length
      omega

/-- Going past a lexeme lessens what a compilation has in front of it. -/
theorem lessens (named : ∀ symbol ∈ symbols.symbols, symbol.spelling ≠ []) :
    (feed symbols).Lessens size where
  advance := by
    intro before after looking moved
    have le := size_le_of_advance named moved
    have one : before.size = before.lexer.rest.length + 1 :=
      congrArg (before.lexer.rest.length + ·) (if_pos looking)
    omega
  plant := by
    intro opcode before after planted
    obtain ⟨tape, _, rfl⟩ := onTape_ok planted
    exact Nat.le_refl _
  plantConstant := by
    intro index before after planted
    obtain ⟨tape, _, rfl⟩ := onTape_ok planted
    exact Nat.le_refl _

/-- A compilation with more rounds than its text has characters. -/
theorem whole_rounds (named : ∀ symbol ∈ symbols.symbols, symbol.spelling ≠ [])
    (text : List Char) (limits : Limits) {rounds : Nat} (enough : text.length < rounds) :
    Descent.whole (feed symbols) (text.length + 1) limits.maxDepth (start text limits) =
      Descent.whole (feed symbols) rounds limits.maxDepth (start text limits) := by
  have below (first : Compiler)
      (moved : (feed symbols).advance (start text limits) = .ok () first) :
      first.size ≤ text.length := size_le_of_advance named moved
  refine (lessens named).whole_eq (lawful symbols) (fun first moved => ?_) (fun first moved => ?_) _
  · exact Nat.lt_succ_of_le (below first moved)
  · exact Nat.lt_of_le_of_lt (below first moved) enough

end Compiler

/-! ## Compilations of texts that are read alike -/

namespace Compiler

variable {symbols symbols' : SymbolTable} {change : Span → Span} {related : Lexer → Lexer → Prop}

/-- Two compilations with one tape that look at the same lexeme. -/
structure Alike (change : Span → Span) (related : Lexer → Lexer → Prop)
    (left right : Compiler) : Prop where
  lexer : Lexer.Placed change related left.lexer right.lexer
  tape : right.tape = left.tape
  current : right.current = left.current

/-- Looking at the next lexeme in both compilations. -/
theorem couples_alike_advance (h : Lexer.ReadAlike symbols symbols' change related)
    {left right : Compiler} (lexers : related left.lexer right.lexer)
    (tape : right.tape = left.tape) :
    Action.Couples (Alike change related) (fun _ => False)
      (relocateFault change (advance symbols left)) (advance symbols' right) := by
  have found := h.couples_next lexers
  rw [advance_eq, advance_eq]
  cases result : Lexer.next symbols left.lexer with
  | ok token? lexer =>
    rw [result] at found
    obtain ⟨lexer', result', placed⟩ := found.of_ok
    rw [result']
    cases token? with
    | none => exact .ok ⟨placed, tape, rfl⟩
    | some token => exact .ok ⟨placed, tape, rfl⟩
  | error fault lexer =>
    rw [result] at found
    rcases found.of_error with impossible | ⟨lexer', result'⟩
    · exact impossible.elim
    · rw [result']
      exact .fault

/-- A step on both tapes. -/
theorem couples_alike_onTape (step : Action Tape Unit) {left right : Compiler}
    (h : Alike change related left right) :
    Action.Couples (Alike change related) (fun _ => False)
      (relocateFault change (onTape step left)) (onTape step right) := by
  rw [onTape_eq, onTape_eq, h.tape, h.lexer.column]
  cases step left.tape with
  | ok _ tape => exact .ok ⟨h.lexer, rfl, h.current⟩
  | error fault tape => exact .fault

/-- The steps of both compilations belong together. -/
theorem coupled_alike_feed (h : Lexer.ReadAlike symbols symbols' change related) :
    ((feed symbols).relocated change).Coupled (feed symbols') (Alike change related)
      (fun _ => False) where
  lawful := (lawful symbols).relocated change
  current states := states.current
  column states := states.lexer.column
  advance states _ := couples_alike_advance h states.lexer.related states.tape
  plant opcode _ _ states := couples_alike_onTape (Tape.plant opcode) states
  plantConstant index _ _ states := couples_alike_onTape (Tape.plantConstant index) states

/-- The program that a descent has led to, or its fault. -/
def outcomeOf : EStateM.Result Fault Compiler Unit → Except Fault Program
  | .ok _ reached => .ok reached.program
  | .error fault _ => .error fault

/-- The outcome of a compilation is that of a descent with more rounds than its text has
characters. -/
theorem outcome_eq_outcomeOf (named : ∀ symbol ∈ symbols.symbols, symbol.spelling ≠ [])
    (text : List Char) (limits : Limits) {rounds : Nat} (enough : text.length < rounds) :
    (compileWith symbols text limits).outcome =
      outcomeOf (Descent.whole (feed symbols) rounds limits.maxDepth (start text limits)) := by
  rw [outcome_compileWith, ← whole_rounds named text limits enough]
  cases Descent.whole (feed symbols) (text.length + 1) limits.maxDepth (start text limits) <;> rfl

/-- A descent over the feed with other ranges has the outcome of the descent, but for the range of
its fault. -/
theorem outcomeOf_relocated (symbols : SymbolTable) (text : List Char) (limits : Limits)
    (rounds : Nat) :
    outcomeOf (Descent.whole ((feed symbols).relocated change) rounds limits.maxDepth
        (start text limits)) =
      (outcomeOf (Descent.whole (feed symbols) rounds limits.maxDepth
        (start text limits))).mapError (Fault.relocated change) := by
  have sound := sound_start text limits
  cases moved : (feed symbols).advance (start text limits) with
  | error fault after =>
    have found := sound.of_advance_error moved
    have moved' : ((feed symbols).relocated change).advance (start text limits) =
        .error (fault.inColumn (change fault.column)) after :=
      congrArg (relocateFault change) moved
    rw [Descent.whole, Descent.whole, Action.bind_of_error moved, Action.bind_of_error moved']
    simp only [outcomeOf, Except.mapError, Fault.relocated, if_pos found]
  | ok _ first =>
    have moved' : ((feed symbols).relocated change).advance (start text limits) = .ok () first :=
      congrArg (relocateFault change) moved
    have same :
        ((feed symbols).relocated change).current first = (feed symbols).current first := rfl
    rw [Feed.whole_of_advance moved, Feed.whole_of_advance moved', same, Feed.complete_relocated]
    cases looking : (feed symbols).current first with
    | none => rfl
    | some token =>
      have ends := Feed.ends_complete (lawful symbols) rounds limits.maxDepth first
      simp only [Option.isNone_some, Bool.false_eq_true, if_false, Action.relocated]
      cases result : (feed symbols).complete rounds limits.maxDepth first with
      | ok _ after => rfl
      | error fault after =>
        rw [result] at ends
        have found := (sound.of_advance_ok moved).stuck ends
        simp only [relocateFault, outcomeOf, Except.mapError, Fault.relocated, if_pos found]

end Compiler

/-- Texts that are read alike are compiled to the same program, or to faults that point at ranges
that the change takes to each other. -/
theorem Lexer.ReadAlike.outcome_eq {symbols symbols' : SymbolTable} {change : Span → Span}
    {related : Lexer → Lexer → Prop} (h : ReadAlike symbols symbols' change related)
    (named : ∀ symbol ∈ symbols.symbols, symbol.spelling ≠ [])
    (named' : ∀ symbol ∈ symbols'.symbols, symbol.spelling ≠ []) {text text' : List Char}
    {limits : Limits}
    (starts : related (.ofText text (Pool.empty limits.maxConstants))
      (.ofText text' (Pool.empty limits.maxConstants))) :
    (compileWith symbols' text' limits).outcome =
      (compileWith symbols text limits).outcome.mapError (Fault.relocated change) := by
  have enough : text.length < max text.length text'.length + 1 :=
    Nat.lt_succ_of_le (Nat.le_max_left _ _)
  have enough' : text'.length < max text.length text'.length + 1 :=
    Nat.lt_succ_of_le (Nat.le_max_right _ _)
  rw [Compiler.outcome_eq_outcomeOf named' text' limits enough',
    Compiler.outcome_eq_outcomeOf named text limits enough, ← Compiler.outcomeOf_relocated]
  have first : Action.Couples (Compiler.Alike change related) (fun _ => False)
      (relocateFault change (Compiler.advance symbols (.start text limits)))
      (Compiler.advance symbols' (.start text' limits)) :=
    Compiler.couples_alike_advance h starts rfl
  have runs := (Compiler.coupled_alike_feed h).whole (max text.length text'.length + 1)
    (Nat.le_refl limits.maxDepth) (fun fewer => absurd fewer (Nat.lt_irrefl _)) first
  cases result : Descent.whole ((Compiler.feed symbols).relocated change)
      (max text.length text'.length + 1) limits.maxDepth (.start text limits) with
  | ok _ reached =>
    rw [result] at runs
    obtain ⟨reached', result', states⟩ := runs.of_ok
    rw [result']
    simp only [Compiler.outcomeOf, Compiler.program, states.tape, h.pool states.lexer.related]
  | error fault reached =>
    rw [result] at runs
    rcases runs.of_error with impossible | ⟨reached', result'⟩
    · exact impossible.elim
    · rw [result']
      rfl

end TapeCalc
