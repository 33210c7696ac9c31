import TapeCalc.Proofs.Lexer.Reading

/-!
# Asking to the end or the first fault

Whoever asks a lexer for one lexeme after the other gets good answers first, and then one
that closes them: the end of the text or a fault.  A good answer takes at least one
character, so asking always comes to an end, and a fault points behind all lexemes that
have been read.

Main definitions:

- {lit}`Lexer.Answers`: the answers of a lexer up to the closing one.
- {lit}`Pull.Closes`: an answer that closes the others.

Main results:

- Theorem {lit}`Lexer.answers_pullAll`: asking up to the end brings all answers.
- Theorem {lit}`Lexer.Answers.closed`: only the last answer closes the others.
- Theorem {lit}`Lexer.Answers.start_lt`: the closing fault stands behind all lexemes.
-/

namespace TapeCalc

/-! ## Where findings stand -/

/-- A comment is left open that has been open before, or one that a gap has met. -/
theorem Gap.le_openedAt_scan {position start : Nat} {openedAt : Option Nat} {text : List Char}
    (h : (scan position openedAt text).openedAt = some start) :
    openedAt = some start ∨ position ≤ start := by
  induction text generalizing position openedAt with
  | nil => exact Or.inl h
  | cons c rest ih =>
    rw [scan] at h
    by_cases mark : c = commentMark
    · rw [if_pos mark] at h
      rcases ih h with opened | later
      · cases openedAt with
        | none => exact Or.inr (Nat.le_of_eq (Option.some.inj opened))
        | some _ => cases opened
      · exact Or.inr (Nat.le_of_succ_le later)
    · rw [if_neg mark] at h
      by_cases stop : (openedAt.isNone && !isBlank c) = true
      · rw [if_pos stop] at h
        cases h
      · rw [if_neg stop] at h
        exact (ih h).imp_right Nat.le_of_succ_le

namespace Lexer

variable {symbols : SymbolTable} {text : List Char} {before after : Lexer}

/-- Whatever a scan finds stands behind the position it starts from. -/
theorem le_start_scan (symbols : SymbolTable) (position : Nat) (rest : List Char) :
    position ≤ (scan symbols position rest).column.start := by
  have moved := Gap.le_position_scan position none rest
  rw [scan]
  split
  · rename_i start opened
    rcases Gap.le_openedAt_scan opened with impossible | behind
    · cases impossible
    · exact behind
  · repeat' split
    all_goals exact moved

/-- A fault points at the range that the lexer remembers, behind the place it was asked at. -/
theorem column_of_next_error {fault : Fault} (failed : next symbols before = .error fault after) :
    fault.column = after.column ∧ before.position ≤ fault.column.start := by
  have behind := le_start_scan symbols before.position before.rest
  rw [next_eq, keep] at failed
  split at failed
  · cases failed
  · split at failed
    · cases failed
    · cases failed
      exact ⟨rfl, behind⟩
  · cases failed
  · cases failed
    exact ⟨rfl, behind⟩

/-- The end of a text is found behind its last character. -/
theorem column_of_next_none (within : before.Within text)
    (ended : next symbols before = .ok none after) : after.column = .point text.length := by
  have found := finds_scan symbols within.inside
  rw [← within.rest] at found
  rw [next_eq] at ended
  generalize scan symbols before.position before.rest = scan at found ended
  cases found with
  | symbol _ _ _ => cases ended
  | literal _ _ _ _ _ =>
    simp only [keep] at ended
    split at ended <;> cases ended
  | finished _ =>
    cases ended
    rfl
  | fault _ _ _ => cases ended

/-! ## Answers -/

/-- The answers of a lexer that is asked for lexemes up to the end or the first fault. -/
inductive Answers (symbols : SymbolTable) : Lexer → List Pull → Prop where
  | finished {before after : Lexer} (ended : next symbols before = .ok none after) :
      Answers symbols before [⟨.ok none, after⟩]
  | fault {before after : Lexer} {fault : Fault}
      (failed : next symbols before = .error fault after) :
      Answers symbols before [⟨.error fault, after⟩]
  | lexeme {before mid : Lexer} {token : Token} {answers : List Pull}
      (taken : next symbols before = .ok (some token) mid)
      (rest : Answers symbols mid answers) :
      Answers symbols before (⟨.ok (some token), mid⟩ :: answers)

/-- With a round more than characters left, asking brings all answers. -/
theorem answers_pulls (named : ∀ symbol ∈ symbols.symbols, symbol.spelling ≠ []) {rounds : Nat}
    {lexer : Lexer} (within : lexer.Within text)
    (enough : text.length < lexer.position + rounds) :
    Answers symbols lexer (pulls symbols rounds lexer) := by
  induction rounds generalizing lexer with
  | zero => exact absurd within.inside (Nat.not_le.mpr enough)
  | succ rounds ih =>
    rw [pulls, pull]
    cases result : next symbols lexer with
    | error fault after => exact .fault result
    | ok token? after =>
      cases token? with
      | none => exact .finished result
      | some token =>
        have moves := within.moves result
        have behind := moves.behind
        have further := moves.takes.lt named
        exact .lexeme result (ih moves.within (by omega))

/-- Asking up to the end brings all answers. -/
theorem answers_pullAll (named : ∀ symbol ∈ symbols.symbols, symbol.spelling ≠ [])
    {lexer : Lexer} (within : lexer.Within text) :
    Answers symbols lexer (lexer.pullAll symbols) := by
  refine answers_pulls named within ?_
  have inside := within.inside
  have length := congrArg List.length within.rest
  rw [List.length_drop] at length
  omega

namespace Answers

variable {answers : List Pull}

/-- Every answer but the last takes a character. -/
theorem length_le (named : ∀ symbol ∈ symbols.symbols, symbol.spelling ≠ [])
    (h : Answers symbols before answers) (within : before.Within text) :
    before.position + answers.length ≤ text.length + 1 := by
  induction h with
  | finished _ => exact Nat.succ_le_succ within.inside
  | fault _ => exact Nat.succ_le_succ within.inside
  | lexeme taken _ ih =>
    have moves := within.moves taken
    have behind := moves.behind
    have further := moves.takes.lt named
    have rest := ih moves.within
    rw [List.length_cons]
    omega

end Answers

end Lexer

/-! ## The closing answer -/

/-- An answer that closes the others: the end of the text, found behind its last character, or a
fault at the range that the lexer remembers. -/
inductive Pull.Closes (text : List Char) : Pull → Prop where
  | finished {after : Lexer} (column : after.column = .point text.length) :
      Closes text ⟨.ok none, after⟩
  | fault {fault : Fault} {after : Lexer} (column : fault.column = after.column) :
      Closes text ⟨.error fault, after⟩

/-- Answers of which only the last closes the others. -/
def Pull.Closed (text : List Char) (answers : List Pull) : Prop :=
  ∃ good closing, answers = good ++ [closing] ∧
    (∀ answer ∈ good, ∃ token, answer.result = .ok (some token)) ∧ closing.Closes text

/-- An answer among closed ones is the last and closes the others, or it is a lexeme and others
follow. -/
theorem Pull.Closed.last_or_lexeme {text : List Char} {passed ahead : List Pull} {answer : Pull}
    (h : Closed text (passed ++ answer :: ahead)) :
    ahead = [] ∧ answer.Closes text ∨
      ahead ≠ [] ∧ ∃ token, answer.result = .ok (some token) := by
  obtain ⟨good, closing, split, lexemes, closes⟩ := h
  rcases List.eq_nil_or_concat ahead with rfl | ⟨more, last, rfl⟩
  · have same := List.append_inj_right' split rfl
    cases same
    exact Or.inl ⟨rfl, closes⟩
  · have front : passed ++ answer :: more ++ [last] = good ++ [closing] := by
      rw [← split, List.concat_eq_append, List.append_assoc, List.cons_append]
    have same := List.append_inj_left' front rfl
    have member : answer ∈ good := by
      rw [← same]
      exact List.mem_append_right _ List.mem_cons_self
    exact Or.inr ⟨by simp, lexemes answer member⟩

namespace Lexer.Answers

variable {symbols : SymbolTable} {text : List Char} {before : Lexer} {answers : List Pull}

/-- Only the last answer closes the others. -/
theorem closed (h : Answers symbols before answers) (within : before.Within text) :
    Pull.Closed text answers := by
  induction h with
  | finished ended =>
    exact ⟨[], _, rfl, by simp, .finished (column_of_next_none within ended)⟩
  | fault failed => exact ⟨[], _, rfl, by simp, .fault (column_of_next_error failed).1⟩
  | @lexeme before mid token answers taken _ ih =>
    obtain ⟨good, closing, rfl, lexemes, closes⟩ := ih (within.moves taken).within
    refine ⟨⟨.ok (some token), mid⟩ :: good, closing, rfl, ?_, closes⟩
    intro answer member
    rcases List.mem_cons.mp member with rfl | later
    · exact ⟨token, rfl⟩
    · exact lexemes answer later

/-- A fault among the answers stands behind the place where asking begins. -/
theorem position_le_start (named : ∀ symbol ∈ symbols.symbols, symbol.spelling ≠ [])
    (h : Answers symbols before answers) (within : before.Within text) {fault : Fault}
    {closing : Pull} (member : closing ∈ answers) (failed : closing.result = .error fault) :
    before.position ≤ fault.column.start := by
  induction h with
  | finished _ =>
    rw [List.mem_singleton.mp member] at failed
    cases failed
  | fault first =>
    rw [List.mem_singleton.mp member] at failed
    cases failed
    exact (column_of_next_error first).2
  | lexeme taken _ ih =>
    have moves := within.moves taken
    have behind := moves.behind
    have further := moves.takes.lt named
    rcases List.mem_cons.mp member with rfl | later
    · cases failed
    · have rest := ih moves.within later
      omega

/-- A fault among the answers stands behind all lexemes. -/
theorem start_lt (named : ∀ symbol ∈ symbols.symbols, symbol.spelling ≠ [])
    (h : Answers symbols before answers) (within : before.Within text) {fault : Fault}
    {answer closing : Pull} (member : closing ∈ answers) (failed : closing.result = .error fault)
    {token : Token} (other : answer ∈ answers) (good : answer.result = .ok (some token)) :
    answer.after.column.start < fault.column.start := by
  induction h with
  | finished _ =>
    rw [List.mem_singleton.mp other] at good
    cases good
  | fault _ =>
    rw [List.mem_singleton.mp other] at good
    cases good
  | lexeme taken rest ih =>
    have moves := within.moves taken
    rcases List.mem_cons.mp member with rfl | later
    · cases failed
    · rcases List.mem_cons.mp other with rfl | otherLater
      · have further := moves.takes.lt named
        have behind := rest.position_le_start named moves.within later failed
        exact Nat.lt_of_lt_of_le further behind
      · exact ih moves.within later otherLater

/-- With a fault among the answers a text is not read to its end. -/
theorem not_yields (h : Answers symbols before answers) {fault : Fault} {closing : Pull}
    (member : closing ∈ answers) (failed : closing.result = .error fault) {last : Lexer}
    {lexemes : List Lexeme} : ¬ Yields symbols before lexemes last := by
  induction h generalizing lexemes with
  | finished _ =>
    rw [List.mem_singleton.mp member] at failed
    cases failed
  | fault first => exact not_yields_of_error first
  | lexeme taken _ ih =>
    rw [yields_iff_of_some taken]
    rintro ⟨rest, _, yields⟩
    rcases List.mem_cons.mp member with rfl | later
    · cases failed
    · exact ih later yields

end Lexer.Answers

end TapeCalc
