import TapeCalc.Proofs.Compiler.State
import TapeCalc.Proofs.Lexer.Gaps
import TapeCalc.Proofs.Literal.Run

/-!
# Reading a number

Where no spelling is found and a digit or a point stands, a number is read.  The lexer goes past the
longest run of characters that could belong to one, and the run as a whole is a literal or a
fault.  A run that goes wrong is never cut down to a part of it that would be a literal.

Main definitions:

- {lit}`Lexer.past`: the lexer behind a range of the text.

Main results:

- Theorem {lit}`Lexer.next_of_run`: what asking for a lexeme does in front of a run.
- Theorem {lit}`number_is_longest_run`: which runs are read, which are refused, and how.
-/

namespace TapeCalc

namespace Lexer

/-! ## In front of a run -/

/-- The lexer behind a range of a text, which it remembers. -/
def past (text : List Char) (column : Span) (pool : Pool) : Lexer :=
  ⟨text.drop column.stop, column.stop, column, pool⟩

/-- The range of a run that stands behind a gap. -/
def runColumn (before : Lexer) (gap run : List Char) : Span :=
  ⟨before.position + gap.length, before.position + gap.length + run.length⟩

variable {symbols : SymbolTable} {text gap rest : List Char} {before : Lexer} {c : Char}

/-- What opens a literal is neither a blank nor a comment mark. -/
theorem ends_of_opens (opens : Literal.opens c = true) (rest : List Char) :
    Gap.Ends (c :: rest) := by
  rintro _ ⟨rfl⟩
  refine ⟨?_, Literal.isBlank_of_opens opens⟩
  rintro rfl
  cases opens

/-- Behind a gap the run is found that opens there. -/
theorem scan_of_run (position : Nat) (isGap : IsGap gap) (opens : Literal.opens c = true)
    (unspelled : symbols.lookup (c :: rest) = none) :
    scan symbols position (gap ++ c :: rest) =
      (Gap.mk (position + gap.length) (c :: rest) none).taken
        (Literal.run (c :: rest)).1.length (.ofRun (Literal.run (c :: rest)).1) := by
  rw [scan, Gap.scan_append isGap, Gap.scan_of_ends _ (ends_of_opens opens rest)]
  dsimp only
  rw [unspelled]
  exact if_pos opens

/-- What is left behind a run is the text behind its range. -/
theorem drop_runColumn (within : before.Within text) (left : before.rest = gap ++ c :: rest)
    (run : List Char) :
    (c :: rest).drop run.length = text.drop (before.runColumn gap run).stop := by
  have behind : text.drop (before.position + gap.length) = c :: rest := by
    rw [← List.drop_drop, ← within.rest, left, List.drop_left]
  rw [runColumn, ← List.drop_drop, behind]

/-- A run covers its range of the text. -/
theorem slice_runColumn (within : before.Within text) (left : before.rest = gap ++ c :: rest) :
    (before.runColumn gap (Literal.run (c :: rest)).1).slice text =
      (Literal.run (c :: rest)).1 := by
  have behind := drop_runColumn within left []
  rw [List.length_nil, List.drop_zero] at behind
  rw [Span.slice, runColumn, Nat.add_sub_cancel_left]
  simp only [runColumn, List.length_nil, Nat.add_zero] at behind
  rw [← behind, Literal.take_length_run]

/-- In front of a run the lexer goes past all of it, and the value goes into the pool if there is
one. -/
theorem next_of_run (within : before.Within text) (isGap : IsGap gap)
    (left : before.rest = gap ++ c :: rest) (opens : Literal.opens c = true)
    (unspelled : symbols.lookup (c :: rest) = none) :
    let run := (Literal.run (c :: rest)).1
    let column := before.runColumn gap run
    next symbols before =
      match Literal.value? run with
      | none =>
        .error ((Fault.plain .badNumberFormat).inColumn column) (past text column before.pool)
      | some value =>
        match Pool.store value before.pool with
        | .ok index pool => .ok (some (.constant index)) (past text column pool)
        | .error fault pool => .error (fault.inColumn column) (past text column pool) := by
  intro run column
  have scanned : scan symbols before.position before.rest =
      ⟨.ofRun run, column, column.stop, text.drop column.stop⟩ := by
    rw [left, scan_of_run _ isGap opens unspelled, Gap.taken, drop_runColumn within left]
    rfl
  rw [next_eq, scanned, keep, Finding.ofRun]
  cases Literal.value? run with
  | none => rfl
  | some value =>
    dsimp only
    cases Pool.store value before.pool <;> rfl

/-- A run of characters of numbers that opens a literal has a value that is a number. -/
theorem number_of_run (opens : Literal.opens c = true) {value : Float}
    (read : Literal.value? (Literal.run (c :: rest)).1 = some value) : value ≠ .nan := by
  obtain ⟨more, head⟩ := Literal.run_of_opens rest opens
  rw [head] at read
  exact (Literal.hasNoSign_of_value? opens read).number

/-- Asking for a lexeme in vain leaves the pool as it was. -/
theorem pool_of_next_error {after : Lexer} {fault : Fault}
    (failed : next symbols before = .error fault after) : after.pool = before.pool := by
  rw [next_eq, keep] at failed
  split at failed
  · cases failed
  · split at failed
    · cases failed
    · rename_i fault pool refused
      cases failed
      exact Pool.eq_of_store_error refused
  · cases failed
  · cases failed
    rfl

end Lexer

/-- Looking at the next lexeme in vain leaves tape and pool as they were. -/
theorem Compiler.program_of_advance_error {symbols : SymbolTable} {before reached : Compiler}
    {fault : Fault} (failed : advance symbols before = .error fault reached) :
    reached.program = before.program := by
  rw [advance_eq] at failed
  split at failed
  · rename_i fault lexer refused
    cases failed
    exact congrArg (Program.mk before.tape) (Lexer.pool_of_next_error refused)
  · cases failed
  · cases failed

/-! ## Numbers -/

/-- Where a lexer stands behind a gap in front of a digit or a point, and no spelling is found there,
it goes past the longest run of characters of numbers.  It answers with a constant that has the
value of the run if and only if the run is an unsigned literal and the pool has a place for its
value.  Otherwise it refuses the whole run, as a number of bad format or because the pool is full,
and neither tape nor pool have changed. -/
theorem number_is_longest_run {symbols : SymbolTable} {text gap rest : List Char}
    {before : Lexer} {c : Char} (within : before.Within text)
    (code : before.pool.overflow = .tooManyConstants) (isGap : IsGap gap)
    (left : before.rest = gap ++ c :: rest) (first : isDigit c = true ∨ c = '.')
    (unspelled : symbols.lookup (c :: rest) = none) :
    ∃ run column, Literal.IsLongestRun run (c :: rest) ∧
      column = before.runColumn gap run ∧ column.slice text = run ∧
      ((∃ index pool, Lexer.next symbols before =
            .ok (some (.constant index)) (.past text column pool) ∧
          ∃ value stored, Literal.value? run = some value ∧
            pool.toList[index]? = some stored ∧ (stored == value) = true) ↔
        Literal.IsUnsigned run ∧
          ∃ value, Literal.value? run = some value ∧ before.pool.Takes value) ∧
      (¬ Literal.IsUnsigned run → Lexer.next symbols before =
        .error ((Fault.plain .badNumberFormat).inColumn column)
          (.past text column before.pool)) ∧
      (Literal.IsUnsigned run →
        (¬ ∃ value, Literal.value? run = some value ∧ before.pool.Takes value) →
          Lexer.next symbols before =
            .error ((Fault.plain .tooManyConstants).inColumn column)
              (.past text column before.pool)) ∧
      ∀ compiler : Compiler, compiler.lexer = before →
        ∀ fault reached, Compiler.advance symbols compiler = .error fault reached →
          reached.program = compiler.program := by
  have opens : Literal.opens c = true := by simpa [Literal.opens] using first
  have step := Lexer.next_of_run within isGap left opens unspelled
  have longest := Literal.isLongestRun_run (c :: rest)
  have covers := Lexer.slice_runColumn within left
  have number (value : Float) (read : Literal.value? (Literal.run (c :: rest)).1 = some value) :=
    Lexer.number_of_run opens read
  generalize (Literal.run (c :: rest)).1 = run at step longest covers number
  have valued := longest.isRun.exists_value?_iff
  refine ⟨run, before.runColumn gap run, longest, rfl, covers, ⟨?_, ?_⟩, ?_, ?_, ?_⟩
  · rintro ⟨index, pool, answer, value, stored, read, _, _⟩
    refine ⟨valued.mp ⟨value, read⟩, value, read, Pool.exists_store_iff.mp ?_⟩
    rw [step] at answer
    simp only [read] at answer
    cases kept : Pool.store value before.pool with
    | ok index pool => exact ⟨index, pool, rfl⟩
    | error fault pool =>
      rw [kept] at answer
      cases answer
  · rintro ⟨_, value, read, takes⟩
    obtain ⟨index, pool, kept⟩ := Pool.exists_store_iff.mpr takes
    obtain ⟨stored, found, same⟩ := (Pool.interns_of_store kept).exists_getElem?
    refine ⟨index, pool, ?_, value, stored, read, found, ?_⟩
    · rw [step]
      simp only [read, kept]
    · exact same.resolve_right fun noNumber => number value read noNumber.1
  · intro malformed
    have unread : Literal.value? run = none :=
      Option.eq_none_iff_forall_not_mem.mpr fun value read => malformed (valued.mp ⟨value, read⟩)
    rw [step]
    simp only [unread]
  · intro unsigned full
    obtain ⟨value, read⟩ := valued.mpr unsigned
    have refused := Pool.store_of_not_takes fun takes => full ⟨value, read, takes⟩
    rw [step]
    simp only [read, refused, code]
  · rintro compiler _ fault reached failed
    exact Compiler.program_of_advance_error failed

/-- In {lit}`1E+-2` a run ends behind the sign of the exponent, and because no digit follows there it
is refused, although it starts with a literal. -/
theorem number_refused_as_a_whole :
    SymbolTable.empty.lookup ['1', 'E', '+', '-', '2'] = none ∧
      Lexer.next .empty (.ofText [' ', '1', 'E', '+', '-', '2'] (Pool.empty 20)) =
        .error ⟨.badNumberFormat, ⟨1, 4⟩, ""⟩ ⟨['-', '2'], 4, ⟨1, 4⟩, Pool.empty 20⟩ := by
  have unspelled : SymbolTable.empty.lookup ['1', 'E', '+', '-', '2'] = none := by decide
  obtain ⟨run, column, longest, rfl, _, _, refused, _⟩ :=
    number_is_longest_run (Lexer.within_ofText [' ', '1', 'E', '+', '-', '2'] (Pool.empty 20)) rfl
      (.blank rfl .nil) rfl (Or.inl rfl) unspelled
  have scanned : (Literal.run ['1', 'E', '+', '-', '2']).1 = ['1', 'E', '+'] := by decide
  obtain rfl : run = ['1', 'E', '+'] := (longest.unique (Literal.isLongestRun_run _)).trans scanned
  have malformed : ¬ Literal.IsUnsigned ['1', 'E', '+'] := fun unsigned =>
    absurd ((Literal.isNumeric_iff_isNumeral _).mpr unsigned.isNumeral) (by decide)
  exact ⟨unspelled, refused malformed⟩

end TapeCalc
