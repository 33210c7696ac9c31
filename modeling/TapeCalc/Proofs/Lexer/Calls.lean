import TapeCalc.Proofs.Lexer.Marks

/-!
# A lexer that is asked again and again

A lexer can be asked for the next lexeme or told to pass over a gap, in any order and also after it
has failed.  Whatever it is asked, it goes forward through its text and not beyond the end, and the
range it remembers is a range of the text.  So the text can be cut at these places, and nothing is
cut that is not there.

The range of a lexeme or a fault has at least one character in it.  Only the end of the text is found
at an empty range.

Main definitions:

- {lit}`Span.In`: ranges of a text.
- {lit}`Lexer.Points`: a lexer whose places are places of a text.
- {lit}`Lexer.afterCalls`: a lexer that has been asked again and again.

Main results:

- Theorem {lit}`Lexer.in_scan`: what is found has a range of the text.
- Theorem {lit}`Lexer.lt_scan`: a range has a character in it, unless the end is found.
- Theorem {lit}`Lexer.Points.afterCalls`: every sequence of calls.
-/

namespace TapeCalc

/-! ## Ranges of a text -/

/-- A range of a text: it does not end before it starts, nor behind the end of the text. -/
structure Span.In (text : List Char) (span : Span) : Prop where
  ordered : span.start ≤ span.stop
  inside : span.stop ≤ text.length

/-- A range of a text covers as many characters as it is long. -/
theorem Span.In.length_slice {text : List Char} {span : Span} (h : span.In text) :
    (span.slice text).length = span.stop - span.start := by
  have ordered := h.ordered
  have inside := h.inside
  rw [slice, List.length_take, List.length_drop]
  omega

/-- The empty range in front of a place of the text. -/
theorem Span.in_point {text : List Char} {position : Nat} (inside : position ≤ text.length) :
    (Span.point position).In text := ⟨Nat.le_refl _, inside⟩

/-- A comment that is left open has at least its mark. -/
theorem Gap.openedAt_lt {position start : Nat} {text : List Char}
    (h : (scan position none text).openedAt = some start) :
    start < (scan position none text).position := by
  have ends := position_scan position none text
  rw [Lexer.rest_of_openedAt h, List.length_nil] at ends
  rcases exists_open h with ⟨impossible, _⟩ | ⟨passed, body, _, _, rfl, rfl⟩
  · cases impossible
  · rw [List.length_append, List.length_cons] at ends
    omega

namespace Lexer

variable {symbols : SymbolTable} {text : List Char} {position : Nat}

/-- What a scan finds at a place of a text has a range of the text, and the range is empty only if
the end is found or a spelling is. -/
theorem in_scan_and (inside : position ≤ text.length) :
    (scan symbols position (text.drop position)).column.In text ∧
      ((∀ symbol ∈ symbols.symbols, symbol.spelling ≠ []) →
        (scan symbols position (text.drop position)).finding ≠ .finished →
          (scan symbols position (text.drop position)).column.start <
            (scan symbols position (text.drop position)).column.stop) := by
  obtain ⟨_, within, left⟩ := Gap.scan_drop inside
  have room := congrArg List.length left
  rw [List.length_drop] at room
  cases opened : (Gap.scan position none (text.drop position)).openedAt with
  | some start =>
    have positive := Gap.openedAt_lt opened
    rw [scan, opened]
    exact ⟨⟨Nat.le_of_lt positive, within⟩, fun _ _ => positive⟩
  | none =>
    rw [scan, opened]
    generalize Gap.scan position none (text.drop position) = gap at within room
    rcases gap with ⟨start, rest, openedAt⟩
    dsimp only at within room ⊢
    cases found : symbols.lookup rest with
    | some entry =>
      rcases entry with ⟨length, token⟩
      have fits := SymbolTable.length_le_of_lookup found
      dsimp only [Gap.taken]
      refine ⟨⟨Nat.le_add_right _ _, by dsimp only; omega⟩, fun named _ => ?_⟩
      obtain ⟨symbol, member, _, same, _⟩ := SymbolTable.exists_of_lookup found
      have positive := List.length_pos_iff.mpr (named symbol member)
      omega
    | none =>
      cases rest with
      | nil => exact ⟨⟨Nat.le_refl _, within⟩, fun _ other => absurd rfl other⟩
      | cons c rest =>
        rw [List.length_cons] at room
        dsimp only
        split
        · rename_i opens
          obtain ⟨more, head⟩ := Literal.run_of_opens rest opens
          have fits := Literal.length_run_le (c :: rest)
          have positive : 0 < (Literal.run (c :: rest)).1.length := by
            rw [head]
            exact Nat.succ_pos _
          rw [List.length_cons] at fits
          dsimp only [Gap.taken]
          exact ⟨⟨Nat.le_add_right _ _, by dsimp only; omega⟩,
            fun _ _ => Nat.lt_add_of_pos_right positive⟩
        · exact ⟨⟨Nat.le_add_right _ _, by dsimp only; omega⟩, fun _ _ => Nat.lt_succ_self _⟩

/-- What a scan finds at a place of a text has a range of the text. -/
theorem in_scan (symbols : SymbolTable) (inside : position ≤ text.length) :
    (scan symbols position (text.drop position)).column.In text := (in_scan_and inside).1

/-- Unless a scan finds the end, the range has a character in it. -/
theorem lt_scan (named : ∀ symbol ∈ symbols.symbols, symbol.spelling ≠ [])
    (inside : position ≤ text.length)
    (other : (scan symbols position (text.drop position)).finding ≠ .finished) :
    (scan symbols position (text.drop position)).column.start <
      (scan symbols position (text.drop position)).column.stop := (in_scan_and inside).2 named other

/-! ## Single calls -/

/-- What a lexer can be asked for. -/
inductive Call where
  | next
  | skip
deriving DecidableEq

/-- The lexer that a call leaves, whether it has succeeded or not. -/
def perform (symbols : SymbolTable) : Call → Lexer → Lexer
  | .next, lexer => Action.reached (next symbols lexer)
  | .skip, lexer => Action.reached (skip lexer)

/-- The lexer that calls leave behind, one after the other. -/
def afterCalls (symbols : SymbolTable) (calls : List Call) (lexer : Lexer) : Lexer :=
  calls.foldl (fun lexer call => perform symbols call lexer) lexer

/-- The places of a lexer are places of a text: it stands in the text, and so does the range that it
remembers. -/
structure Points (text : List Char) (lexer : Lexer) : Prop where
  within : lexer.Within text
  column : lexer.column.In text

/-- A lexer that has not been asked anything points at the start of its text. -/
theorem points_ofText (text : List Char) (pool : Pool) : (ofText text pool).Points text :=
  ⟨within_ofText text pool, Span.in_point (Nat.zero_le _)⟩

/-- What asking for a lexeme leaves is the lexer behind a scan. -/
theorem exists_behind_of_next (symbols : SymbolTable) (lexer : Lexer) :
    ∃ pool, Action.reached (next symbols lexer) =
      behind (scan symbols lexer.position lexer.rest) pool := by
  have reached : Action.reached (next symbols lexer) = (lexer.pull symbols).after := by
    rw [pull]
    cases next symbols lexer <;> rfl
  rw [reached]
  exact exists_behind_of_pull symbols lexer

/-- What a scan at a place of a text leaves of it. -/
theorem within_behind (symbols : SymbolTable) {lexer : Lexer} (within : lexer.Within text)
    (pool : Pool) : (behind (scan symbols lexer.position lexer.rest) pool).Within text := by
  have found := finds_scan symbols within.inside
  rw [← within.rest] at found
  generalize scan symbols lexer.position lexer.rest = scan at found
  cases found with
  | symbol _ inside _ => exact ⟨inside, rfl⟩
  | literal _ inside _ _ _ => exact ⟨inside, rfl⟩
  | finished _ => exact ⟨Nat.le_refl _, rfl⟩
  | fault _ inside _ => exact ⟨inside, rfl⟩

/-- Asking for a lexeme keeps the places of a lexer in its text, and does not move it back. -/
theorem Points.next {lexer : Lexer} (h : lexer.Points text) (symbols : SymbolTable) :
    (Action.reached (next symbols lexer)).Points text ∧
      lexer.position ≤ (Action.reached (next symbols lexer)).position := by
  obtain ⟨pool, reached⟩ := exists_behind_of_next symbols lexer
  have column := in_scan symbols h.within.inside
  rw [← h.within.rest] at column
  rw [reached]
  exact ⟨⟨within_behind symbols h.within pool, column⟩, le_position_scan _ _ _⟩

/-- Passing over a gap keeps the places of a lexer in its text, and does not move it back. -/
theorem Points.skip {lexer : Lexer} (h : lexer.Points text) :
    (Action.reached (skip lexer)).Points text ∧
      lexer.position ≤ (Action.reached (skip lexer)).position := by
  obtain ⟨moved, inside, left⟩ := Gap.scan_drop h.within.inside
  rw [← h.within.rest] at moved inside left
  rw [Lexer.skip]
  cases opened : (Gap.scan lexer.position none lexer.rest).openedAt with
  | none => exact ⟨⟨⟨inside, left⟩, h.column⟩, moved⟩
  | some start =>
    exact ⟨⟨⟨inside, left⟩, ⟨Nat.le_of_lt (Gap.openedAt_lt opened), inside⟩⟩, moved⟩

/-- Whatever a lexer is asked, its places stay places of the text, and it does not move back. -/
theorem Points.perform {lexer : Lexer} (h : lexer.Points text) (symbols : SymbolTable)
    (call : Call) :
    (perform symbols call lexer).Points text ∧
      lexer.position ≤ (perform symbols call lexer).position := by
  cases call with
  | next => exact h.next symbols
  | skip => exact h.skip

/-! ## Every sequence of calls -/

/-- Calls one after the other. -/
theorem afterCalls_append (symbols : SymbolTable) (calls more : List Call) (lexer : Lexer) :
    afterCalls symbols (calls ++ more) lexer =
      afterCalls symbols more (afterCalls symbols calls lexer) := List.foldl_append

/-- Whatever a lexer is asked one after the other, its places stay places of the text, and it does
not move back. -/
theorem Points.afterCalls {lexer : Lexer} (h : lexer.Points text) (symbols : SymbolTable)
    (calls : List Call) :
    (afterCalls symbols calls lexer).Points text ∧
      lexer.position ≤ (afterCalls symbols calls lexer).position := by
  induction calls generalizing lexer with
  | nil => exact ⟨h, Nat.le_refl _⟩
  | cons call calls ih =>
    obtain ⟨points, first⟩ := h.perform symbols call
    obtain ⟨last, rest⟩ := ih points
    exact ⟨last, Nat.le_trans first rest⟩

end Lexer

end TapeCalc
