import TapeCalc.Proofs.Lexer.Insertion
import TapeCalc.Proofs.Literal.Run
import Mathlib.Algebra.Ring.Parity

/-!
# Counting the marks of comments

A mark opens a comment and the next one closes it, so a gap has an even number of marks.  The words
between the gaps have none, if the names of the variables have none.  So in front of the place that a
lexer has come to there is an even number of marks, as long as every comment has been closed.

A comment that is left open begins with the last mark of the text.

Main definitions:

- {lit}`SymbolTable.Unmarked`: tables without a mark in their names.
- {lit}`Lexer.Balanced`: an even number of marks in front of a lexer.

Main results:

- Theorem {lit}`IsGap.even_count`: a gap has an even number of marks.
- Theorem {lit}`Spells.unmarked`: a word has no marks.
- Theorem {lit}`Gap.exists_open`: what a comment that is left open looks like.
- Theorem {lit}`Lexer.Balanced.next`: reading a lexeme keeps the number of marks even.
- Theorem {lit}`Lexer.finding_of_next_error`: how a lexer fails.
-/

namespace TapeCalc

/-! ## Marks in gaps -/

/-- A gap has an even number of marks. -/
theorem IsGap.even_count {gap : List Char} (h : IsGap gap) : Even (gap.count commentMark) := by
  induction h with
  | nil => exact Even.zero
  | @blank c gap isBlank _ ih =>
    have other : c ≠ commentMark := by
      rintro rfl
      cases isBlank
    rwa [List.count_cons_of_ne other]
  | @comment body gap unmarked _ ih =>
    rw [List.cons_append, List.count_cons_self, List.count_append, List.count_eq_zero.mpr unmarked,
      List.count_cons_self, Nat.zero_add]
    exact ih.add even_two

/-- A scan that leaves a comment open is inside a comment all the time, or it has met one that
begins with the last mark, behind what it has passed over. -/
theorem Gap.exists_open {position start : Nat} {openedAt : Option Nat} {text : List Char}
    (h : (scan position openedAt text).openedAt = some start) :
    openedAt = some start ∧ commentMark ∉ text ∨
      ∃ passed body, Passes openedAt passed ∧ commentMark ∉ body ∧
        text = passed ++ commentMark :: body ∧ start = position + passed.length := by
  induction text generalizing position openedAt with
  | nil => exact .inl ⟨h, List.not_mem_nil⟩
  | cons c text ih =>
    rw [scan] at h
    by_cases mark : c = commentMark
    · rw [if_pos mark] at h
      rcases ih h with ⟨opened, unmarked⟩ | ⟨passed, body, passes, unmarked, rfl, rfl⟩
      · cases openedAt with
        | none =>
          cases opened
          exact .inr ⟨[], text, .gap .nil, unmarked, by rw [mark, List.nil_append], rfl⟩
        | some _ => cases opened
      · refine .inr ⟨c :: passed, body, @Passes.cons position _ _ _ ?_ (.inl mark), unmarked,
          rfl, ?_⟩
        · rwa [if_pos mark]
        · rw [List.length_cons]
          omega
    · rw [if_neg mark] at h
      by_cases stop : (openedAt.isNone && !isBlank c) = true
      · rw [if_pos stop] at h
        cases h
      · rw [if_neg stop] at h
        rcases ih h with ⟨rfl, unmarked⟩ | ⟨passed, body, passes, unmarked, rfl, rfl⟩
        · exact .inl ⟨rfl, List.not_mem_cons_of_ne_of_not_mem (Ne.symm mark) unmarked⟩
        · have goesOn : openedAt.isSome ∨ isBlank c = true := by
            cases openedAt with
            | none => exact .inr (by simpa using stop)
            | some _ => exact .inl rfl
          refine .inr ⟨c :: passed, body, @Passes.cons position _ _ _ ?_ (.inr goesOn), unmarked,
            rfl, ?_⟩
          · rwa [if_neg mark]
          · rw [List.length_cons]
            omega

/-! ## Marks in words -/

/-- No name of a table has a mark in it. -/
def SymbolTable.Unmarked (table : SymbolTable) : Prop :=
  ∀ binding ∈ table.bindings, commentMark ∉ binding.name

/-- The table for names without a mark in them. -/
theorem SymbolTable.unmarked_of_ofNames {xName yName : String} {table : SymbolTable}
    (bound : ofNames xName yName = .ok table) (plainX : commentMark ∉ xName.toList)
    (plainY : commentMark ∉ yName.toList) : table.Unmarked := by
  intro binding member
  rcases name_of_ofNames bound binding member with same | same
  · rwa [same]
  · rwa [same]

/-- The mark is a character that a gap begins with. -/
theorem opensGap_commentMark : opensGap commentMark = true := rfl

/-- No spelling has a mark in it, if no name has. -/
theorem SymbolTable.Unmarked.not_mem {table : SymbolTable} (h : table.Unmarked) {symbol : Symbol}
    (member : symbol ∈ table.symbols) : commentMark ∉ symbol.spelling := by
  rcases SymbolTable.mem_symbols.mp member with ⟨binding, bound, rfl⟩ | fixed
  · exact h binding bound
  · intro inside
    have closed := not_opensGap_of_builtins fixed commentMark inside
    rw [opensGap_commentMark] at closed
    cases closed

/-- A run has no mark in it. -/
theorem Literal.IsRun.unmarked {run : List Char} (h : IsRun run) : commentMark ∉ run := by
  intro member
  obtain ⟨outside, noSign⟩ := not_inRun_of_opensGap opensGap_commentMark
  rcases h.inRun_or_isSign commentMark member with inside | sign
  · rw [outside] at inside
    cases inside
  · rw [noSign] at sign
    cases sign

/-- A word that is found has no mark in it, if no name has. -/
theorem Spells.unmarked {symbols : SymbolTable} (names : symbols.Unmarked) {word rest : List Char}
    {finding : Finding} (h : Spells symbols word rest finding) : commentMark ∉ word := by
  cases h with
  | symbol found =>
    obtain ⟨symbol, member, starts, length, _⟩ := SymbolTable.exists_of_lookup found
    intro inside
    obtain ⟨front, more, rfl⟩ := List.append_of_mem inside
    rw [List.append_assoc, List.cons_append] at starts
    rw [List.length_append, List.length_cons] at length
    exact names.not_mem member
      (mem_of_startsWith (hasOneForm_of_opensGap opensGap_commentMark) front (by omega) starts)
  | literal _ _ _ run _ =>
    rw [← run]
    exact (Literal.isRun_run _).unmarked

/-! ## Lexers with all comments closed -/

namespace Lexer

variable {symbols : SymbolTable} {text : List Char} {before after : Lexer}

/-- What is left of a text is left behind an even number of marks. -/
def Balanced (text : List Char) (lexer : Lexer) : Prop :=
  ∃ front, text = front ++ lexer.rest ∧ front.length = lexer.position ∧
    Even (front.count commentMark)

/-- A lexer begins without any mark behind it. -/
theorem balanced_ofText (text : List Char) (pool : Pool) : (ofText text pool).Balanced text :=
  ⟨[], rfl, rfl, Even.zero⟩

/-- Going past more of the text with an even number of marks. -/
theorem Balanced.further (h : before.Balanced text) (passed : List Char)
    (taken : before.rest = passed ++ after.rest)
    (moved : after.position = before.position + passed.length)
    (even : Even (passed.count commentMark)) : after.Balanced text := by
  obtain ⟨front, rfl, length, evenFront⟩ := h
  refine ⟨front ++ passed, ?_, ?_, ?_⟩
  · rw [taken, List.append_assoc]
  · rw [List.length_append, length, moved]
  · rw [List.count_append]
    exact evenFront.add even

/-- What the end of a text is found behind is a gap, and nothing is left there. -/
theorem finished_of_next (named : ∀ symbol ∈ symbols.symbols, symbol.spelling ≠ [])
    (ended : next symbols before = .ok none after) :
    IsGap before.rest ∧ after.rest = [] ∧
      after.position = before.position + before.rest.length := by
  have isGap := isGap_of_next ended
  rw [next_eq, scan_of_isGap named isGap] at ended
  cases ended
  exact ⟨isGap, rfl, rfl⟩

/-- Reading the next lexeme, or the end, keeps the number of marks even. -/
theorem Balanced.next (named : ∀ symbol ∈ symbols.symbols, symbol.spelling ≠ [])
    (names : symbols.Unmarked) (h : before.Balanced text) {token? : Option Token}
    (taken : next symbols before = .ok token? after) : after.Balanced text := by
  cases token? with
  | none =>
    obtain ⟨isGap, nothing, moved⟩ := finished_of_next named taken
    refine h.further before.rest ?_ moved isGap.even_count
    rw [nothing, List.append_nil]
  | some token =>
    obtain ⟨tile, whole, begins, _, _, moved⟩ := exists_begins_of_next named taken
    refine h.further (tile.gap ++ tile.word) ?_ ?_ ?_
    · rw [whole, List.append_assoc]
    · rw [moved, Tile.column, List.length_append, Nat.add_assoc]
    · rw [List.count_append, List.count_eq_zero.mpr (begins.spells.unmarked names), Nat.add_zero]
      exact begins.gap.even_count

/-- A scan that finds a comment that is left open finds it in the gap, and covers it up to the end
of the gap. -/
theorem openedAt_of_scan {position : Nat} {rest : List Char}
    (found : (scan symbols position rest).finding = .fault .unterminatedComment) :
    ∃ start, (Gap.scan position none rest).openedAt = some start ∧
      (scan symbols position rest).column = ⟨start, (Gap.scan position none rest).position⟩ := by
  cases opened : (Gap.scan position none rest).openedAt with
  | some start =>
    refine ⟨start, rfl, ?_⟩
    rw [scan, opened]
  | none =>
    rw [scan, opened] at found
    dsimp only at found
    split at found
    · cases found
    · split at found
      · cases found
      · split at found
        · rw [Gap.taken, Finding.ofRun] at found
          split at found <;> cases found
        · cases found

/-- How a lexer fails: what it has found is a fault, or a literal that a full pool refuses.  The fault
has the range of what has been found. -/
theorem finding_of_next_error {fault : Fault}
    (failed : Lexer.next symbols before = .error fault after) :
    let found := scan symbols before.position before.rest
    fault.column = found.column ∧
      (found.finding = .fault fault.code ∨
        (∃ value, found.finding = .literal value) ∧ fault.code = before.pool.overflow) := by
  rw [next_eq, keep] at failed
  split at failed
  · cases failed
  · rename_i value literal
    split at failed
    · cases failed
    · rename_i full
      obtain ⟨_, rfl, _⟩ := Pool.store_error full
      cases failed
      exact ⟨rfl, .inr ⟨⟨value, literal⟩, rfl⟩⟩
  · cases failed
  · rename_i found
    cases failed
    exact ⟨rfl, .inl found⟩

/-- A comment that is left open begins with the last mark of the text, and there is an odd number of
marks. -/
theorem Balanced.unterminated (h : before.Balanced text)
    (pool : before.pool.overflow ≠ .unterminatedComment) {fault : Fault}
    (failed : Lexer.next symbols before = .error fault after)
    (code : fault.code = .unterminatedComment) :
    Odd (text.count commentMark) ∧ ∃ front body, text = front ++ commentMark :: body ∧
      commentMark ∉ body ∧ fault.column = ⟨front.length, text.length⟩ := by
  obtain ⟨column, found | ⟨_, full⟩⟩ := finding_of_next_error failed
  case inr => exact absurd (full.symm.trans code) pool
  rw [code] at found
  obtain ⟨start, opened, covered⟩ := openedAt_of_scan found
  obtain ⟨front, rfl, length, evenFront⟩ := h
  rcases Gap.exists_open opened with ⟨impossible, _⟩ | ⟨gap, body, passes, unmarked, left, place⟩
  · cases impossible
  have ends := Gap.position_scan before.position none before.rest
  rw [rest_of_openedAt opened, List.length_nil, Nat.add_zero] at ends
  rcases passes with ⟨isGap⟩
  refine ⟨?_, front ++ gap, body, ?_, unmarked, ?_⟩
  · rw [left, List.count_append, List.count_append, List.count_cons_self,
      List.count_eq_zero.mpr unmarked, Nat.zero_add, ← Nat.add_assoc]
    exact (evenFront.add isGap.even_count).add_one
  · rw [left, List.append_assoc]
  · rw [column, covered, place, ends, List.length_append, List.length_append, length]

end Lexer

end TapeCalc
