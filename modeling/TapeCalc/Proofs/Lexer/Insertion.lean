import TapeCalc.Proofs.Lexer.Context
import TapeCalc.Proofs.Lexer.ReadAlike

/-!
# Gaps put into a text

A gap is put into a text where a lexeme ends, or in front of the whole text.  The words in front
of it are read as before: if no name has a blank or a comment mark in it, no spelling and no
literal reaches over the first character of a gap.  Behind the gap the text is read as before
too, but all that is found there stands further on by the length of the gap.

It makes no difference whether reading meets faults on the way to the place.  A refused literal
is a word like any other, and behind a fault that stops the lexer no lexeme is ever read.

Main definitions:

- {lit}`opensGap`: the characters that a gap may begin with.
- {lit}`IsSeam`: the places where a gap may be put into a text.
- {lit}`Span.shiftedFrom`: a range in the text with a gap put into it.
- {lit}`Lexer.Apart`: lexers over the text without and with the gap.

Main results:

- Theorem {lit}`Meets.insert`: words in front of the gap.
- Theorem {lit}`Lexer.scan_add`: a text that stands further on.
- Theorem {lit}`Lexer.readAlike_apart`: the text is read alike with the gap.
-/

namespace TapeCalc

/-! ## Characters that a gap begins with -/

/-- Whether a gap may begin with a character. -/
def opensGap (c : Char) : Bool := isBlank c || c == commentMark

/-- A character that a gap begins with is a blank or a mark. -/
theorem opensGap_iff {c : Char} : opensGap c = true ↔ c = ' ' ∨ c = '\t' ∨ c = commentMark := by
  simp [opensGap, isBlank, or_assoc]

/-- Such a character has one form only. -/
theorem hasOneForm_of_opensGap {c : Char} (h : opensGap c = true) : HasOneForm c := by
  rcases opensGap_iff.mp h with rfl | rfl | rfl <;> decide

/-- Such a character is neither part of a literal nor a sign in it. -/
theorem not_inRun_of_opensGap {c : Char} (h : opensGap c = true) :
    Literal.inRun c = false ∧ isSign c = false := by
  rcases opensGap_iff.mp h with rfl | rfl | rfl <;> decide

/-- A gap begins with such a character. -/
theorem IsGap.opensGap_head {gap : List Char} (h : IsGap gap) {c : Char} {more : List Char}
    (head : gap = c :: more) : opensGap c = true := by
  cases h with
  | nil => cases head
  | blank isBlank _ =>
    cases head
    exact opensGap_iff.mpr (by simpa [TapeCalc.isBlank, or_assoc] using Or.inl isBlank)
  | comment _ _ =>
    cases head
    exact opensGap_iff.mpr (Or.inr (Or.inr rfl))

/-- No name of the table has a character in it that a gap may begin with. -/
def SymbolTable.Gapless (table : SymbolTable) : Prop :=
  ∀ binding ∈ table.bindings, ∀ c ∈ binding.name, opensGap c = false

/-- The table for names without such a character in them. -/
theorem SymbolTable.gapless_of_ofNames {xName yName : String} {table : SymbolTable}
    (bound : ofNames xName yName = .ok table)
    (plainX : ∀ c ∈ xName.toList, opensGap c = false)
    (plainY : ∀ c ∈ yName.toList, opensGap c = false) : table.Gapless := by
  intro binding member
  rcases name_of_ofNames bound binding member with same | same
  · rw [same]
    exact plainX
  · rw [same]
    exact plainY

/-- No fixed spelling has such a character in it. -/
theorem not_opensGap_of_builtins {symbol : Symbol} (fixed : symbol ∈ builtins) :
    ∀ c ∈ symbol.spelling, opensGap c = false := by
  have noSpace : ∀ symbol ∈ builtins, ' ' ∉ symbol.spelling := by decide
  have noTab : ∀ symbol ∈ builtins, '\t' ∉ symbol.spelling := by decide
  have noMark : ∀ symbol ∈ builtins, commentMark ∉ symbol.spelling := by decide
  intro c inside
  refine Bool.eq_false_iff.mpr fun opens => ?_
  rcases opensGap_iff.mp opens with rfl | rfl | rfl
  · exact noSpace symbol fixed inside
  · exact noTab symbol fixed inside
  · exact noMark symbol fixed inside

/-- No spelling has such a character in it, if no name has. -/
theorem SymbolTable.Gapless.not_opensGap {table : SymbolTable} (h : table.Gapless) {symbol : Symbol}
    (member : symbol ∈ table.symbols) : ∀ c ∈ symbol.spelling, opensGap c = false := by
  rcases SymbolTable.mem_symbols.mp member with ⟨binding, bound, rfl⟩ | fixed
  · exact h binding bound
  · exact not_opensGap_of_builtins fixed

/-! ## Words in front of the gap -/

/-- A run ends in front of a gap where it ends in front of the text behind the gap. -/
theorem IsGap.endsRun {gap : List Char} (isGap : IsGap gap) (front rest : List Char) :
    Literal.EndsRun (front ++ rest) (front ++ (gap ++ rest)) := by
  intro c head
  cases front with
  | cons d front => exact Or.inl head
  | nil =>
    cases gap with
    | nil => exact Or.inl head
    | cons d gap =>
      cases head
      exact Or.inr (not_inRun_of_opensGap (isGap.opensGap_head rfl))

section Insert

variable {symbols : SymbolTable} (named : ∀ symbol ∈ symbols.symbols, symbol.spelling ≠ [])
  (names : symbols.Gapless)

include names

/-- No spelling that is found in front of a gap reaches into it. -/
theorem IsGap.length_le_of_startsWith {c : Char} {gap : List Char} (isGap : IsGap (c :: gap))
    {symbol : Symbol} (member : symbol ∈ symbols.symbols) {start rest : List Char}
    (starts : startsWith symbol.spelling (start ++ (c :: gap ++ rest)) = true) :
    symbol.spelling.length ≤ start.length := by
  have opens := isGap.opensGap_head rfl
  refine Nat.le_of_not_lt fun long => ?_
  have inside := mem_of_startsWith (hasOneForm_of_opensGap opens) start long starts
  rw [names.not_opensGap member c inside] at opens
  cases opens

/-- With a gap put in behind it, a word has the same longest spelling. -/
theorem IsGap.lookup_eq {gap : List Char} (isGap : IsGap gap) {word front rest : List Char}
    (longest : ∀ symbol ∈ symbols.symbols,
      startsWith symbol.spelling (word ++ (front ++ rest)) = true →
        symbol.spelling.length ≤ word.length) :
    symbols.lookup (word ++ (front ++ rest)) =
      symbols.lookup (word ++ (front ++ (gap ++ rest))) := by
  cases gap with
  | nil => rfl
  | cons c gap =>
    rw [← List.append_assoc, ← List.append_assoc]
    rw [← List.append_assoc] at longest
    refine SymbolTable.lookup_append_congr (fun symbol member starts => ?_)
      (fun symbol member starts => isGap.length_le_of_startsWith names member starts)
    have least := longest symbol member starts
    rw [List.length_append]
    omega

/-- With a gap put in behind it, a scan goes past a word in the same way. -/
theorem Covers.insert {word front rest gap : List Char} {finding : Finding}
    (h : Covers symbols word (front ++ rest) finding) (isGap : IsGap gap) :
    Covers symbols word (front ++ (gap ++ rest)) finding := by
  cases h with
  | symbol found =>
    rw [isGap.lookup_eq names (SymbolTable.longest_of_lookup found)] at found
    exact .symbol found
  | run head opens missing run =>
    have same := isGap.lookup_eq names fun symbol member starts => by
      rw [SymbolTable.startsWith_of_lookup_eq_none missing symbol member] at starts
      cases starts
    rw [same] at missing
    exact .run head opens missing (Literal.run_congr (isGap.endsRun front rest) word run)

include named

/-- With a gap put in behind it, a scan goes past a tile in the same way. -/
theorem Meets.insert {tile : Tile} {front rest gap : List Char}
    (h : Meets symbols tile (front ++ rest)) (isGap : IsGap gap) :
    Meets symbols tile (front ++ (gap ++ rest)) :=
  ⟨h.gap, h.ends.congr (h.covers.word_ne_nil named) _, h.covers.insert names isGap⟩

end Insert

/-- The start of a text that scans go past, one tile after the other, in front of the rest. -/
inductive Passed (symbols : SymbolTable) : List Char → List Char → Prop where
  | nil (rest : List Char) : Passed symbols [] rest
  | tile {tile : Tile} {front rest : List Char} (meets : Meets symbols tile (front ++ rest))
      (passed : Passed symbols front rest) :
      Passed symbols (tile.gap ++ (tile.word ++ front)) rest

/-! ## The text behind the gap -/

/-- A range further on. -/
def Span.shifted (length : Nat) (span : Span) : Span := ⟨span.start + length, span.stop + length⟩

/-- A range in a text with characters put in at a place: further on if it begins there or behind,
and the same otherwise. -/
def Span.shiftedFrom (place length : Nat) (span : Span) : Span :=
  if place ≤ span.start then span.shifted length else span

/-- A gap further on. -/
theorem Gap.scan_add (length position : Nat) (openedAt : Option Nat) (text : List Char) :
    scan (position + length) (openedAt.map (· + length)) text =
      ⟨(scan position openedAt text).position + length, (scan position openedAt text).rest,
        (scan position openedAt text).openedAt.map (· + length)⟩ := by
  induction text generalizing position openedAt with
  | nil => rfl
  | cons c rest ih =>
    have step : position + length + 1 = position + 1 + length := by omega
    rw [scan, scan, Option.isNone_map, step]
    split
    · rw [← ih]
      cases openedAt <;> rfl
    · split
      · rfl
      · exact ih _ _

namespace Lexer

variable {symbols : SymbolTable}

/-- A scan further on. -/
theorem scan_add (symbols : SymbolTable) (length position : Nat) (rest : List Char) :
    scan symbols (position + length) rest =
      ⟨(scan symbols position rest).finding, (scan symbols position rest).column.shifted length,
        (scan symbols position rest).position + length, (scan symbols position rest).rest⟩ := by
  have gap := Gap.scan_add length position none rest
  rw [Option.map_none] at gap
  rw [scan, scan, gap]
  generalize Gap.scan position none rest = found
  rcases found with ⟨start, left, openedAt⟩
  have taken (characters : Nat) (finding : Finding) :
      (Gap.mk (start + length) left none).taken characters finding =
        ⟨finding, Span.shifted length ⟨start, start + characters⟩, start + characters + length,
          left.drop characters⟩ := by
    simp only [Gap.taken, Span.shifted, Nat.add_right_comm]
  cases openedAt with
  | some opened => rfl
  | none =>
    dsimp only [Option.map_none]
    cases symbols.lookup left with
    | some entry => exact taken _ _
    | none =>
      cases left with
      | nil => exact taken _ _
      | cons c more =>
        dsimp only
        split
        · exact taken _ _
        · simp only [Span.shifted, Nat.add_right_comm]

/-- Behind a gap a scan finds what it finds without the gap, further on. -/
theorem scan_gap {gap : List Char} (isGap : IsGap gap) (position : Nat) (rest : List Char) :
    scan symbols position (gap ++ rest) = scan symbols (position + gap.length) rest := by
  rw [scan, scan, Gap.scan_append isGap]

/-- A scan never moves back. -/
theorem le_position_scan (symbols : SymbolTable) (position : Nat) (rest : List Char) :
    position ≤ (scan symbols position rest).position := by
  have moved := Gap.le_position_scan position none rest
  rw [scan]
  split
  · exact moved
  · split
    · exact Nat.le_add_right_of_le moved
    · split
      · exact Nat.le_add_right_of_le moved
      · split
        · exact Nat.le_add_right_of_le moved
        · exact moved

/-! ## Both texts side by side -/

/-- Lexers over a text without and with a gap put in at a place: both in front of the place, with
tiles up to it, or both behind it. -/
inductive Apart (symbols : SymbolTable) (place : Nat) (gap : List Char) : Lexer → Lexer → Prop where
  | ahead {front rest : List Char} {position : Nat} {column column' : Span} {pool : Pool}
      (passed : Passed symbols front rest) (reaches : position + front.length = place) :
      Apart symbols place gap ⟨front ++ rest, position, column, pool⟩
        ⟨front ++ (gap ++ rest), position, column', pool⟩
  | behind {rest : List Char} {position : Nat} {column column' : Span} {pool : Pool}
      (behind : place ≤ position) :
      Apart symbols place gap ⟨rest, position, column, pool⟩
        ⟨rest, position + gap.length, column', pool⟩

/-- Behind the place the same is found, further on. -/
theorem sameScan_behind {place position : Nat} (gap rest : List Char) (behind : place ≤ position) :
    SameScan (Span.shiftedFrom place gap.length) (Apart symbols place gap)
      (scan symbols position rest) (scan symbols (position + gap.length) rest) := by
  have start := Nat.le_trans behind (le_start_scan symbols position rest)
  have moved := Nat.le_trans behind (le_position_scan symbols position rest)
  rw [scan_add]
  refine ⟨rfl, ?_, fun pool => .behind moved⟩
  rw [Span.shiftedFrom, if_pos start]

/-- In front of the place the same is found, at the same range. -/
theorem sameScan_ahead (named : ∀ symbol ∈ symbols.symbols, symbol.spelling ≠ [])
    (names : symbols.Gapless) {place position : Nat} {tile : Tile} {front rest gap : List Char}
    (isGap : IsGap gap) (meets : Meets symbols tile (front ++ rest))
    (passed : Passed symbols front rest)
    (reaches : position + (tile.gap ++ (tile.word ++ front)).length = place) :
    SameScan (Span.shiftedFrom place gap.length) (Apart symbols place gap)
      (scan symbols position (tile.gap ++ (tile.word ++ (front ++ rest))))
      (scan symbols position (tile.gap ++ (tile.word ++ (front ++ (gap ++ rest))))) := by
  have word := List.length_pos_iff.mpr (meets.covers.word_ne_nil named)
  rw [List.length_append, List.length_append] at reaches
  have before : ¬ place ≤ (tile.column position).start := by
    dsimp only [Tile.column]
    omega
  have stop : (tile.column position).stop + front.length = place := by
    dsimp only [Tile.column]
    omega
  rw [scan_meets meets, scan_meets (meets.insert named names isGap)]
  refine ⟨rfl, ?_, fun pool => .ahead passed stop⟩
  rw [scanOf, scanOf, Span.shiftedFrom, if_neg before]

/-- A text is read alike with a gap put in. -/
theorem readAlike_apart (named : ∀ symbol ∈ symbols.symbols, symbol.spelling ≠ [])
    (names : symbols.Gapless) (place : Nat) {gap : List Char} (isGap : IsGap gap) :
    ReadAlike symbols symbols (Span.shiftedFrom place gap.length) (Apart symbols place gap) where
  pool := by
    intro left right apart
    cases apart <;> rfl
  scan := by
    intro left right apart
    cases apart with
    | behind behind => exact sameScan_behind gap _ behind
    | ahead passed reaches =>
      cases passed with
      | nil _ =>
        dsimp only [List.nil_append]
        rw [scan_gap isGap]
        exact sameScan_behind gap _ (Nat.le_of_eq reaches.symm)
      | tile meets passed =>
        dsimp only
        simp only [List.append_assoc]
        exact sameScan_ahead named names isGap meets passed reaches

/-! ## Places where a gap may be put in -/

/-- The lexers that asking for lexemes leads to, whether the answers are good or faults. -/
inductive Asked (symbols : SymbolTable) (first : Lexer) : Lexer → Prop where
  | start : Asked symbols first first
  | pull {lexer : Lexer} (asked : Asked symbols first lexer) :
      Asked symbols first (lexer.pull symbols).after

/-- No scan ever goes past a word in what is left. -/
def Blocked (symbols : SymbolTable) (rest : List Char) : Prop :=
  ∀ tile more, Meets symbols tile more → rest ≠ tile.gap ++ (tile.word ++ more)

/-- A comment is only left open at the end of a text. -/
theorem rest_of_openedAt {position start : Nat} {openedAt : Option Nat} {text : List Char}
    (h : (Gap.scan position openedAt text).openedAt = some start) :
    (Gap.scan position openedAt text).rest = [] := by
  induction text generalizing position openedAt with
  | nil => rfl
  | cons c rest ih =>
    rw [Gap.scan] at h ⊢
    split
    · rename_i mark
      rw [if_pos mark] at h
      exact ih h
    · rename_i mark
      rw [if_neg mark] at h
      split
      · rename_i stop
        rw [if_pos stop] at h
        cases h
      · rename_i goesOn
        rw [if_neg goesOn] at h
        exact ih h

/-- At the end there is nothing to go past. -/
theorem blocked_nil (named : ∀ symbol ∈ symbols.symbols, symbol.spelling ≠ []) :
    Blocked symbols [] := by
  intro tile more meets whole
  have nothing := (List.append_eq_nil_iff.mp (List.append_eq_nil_iff.mp whole.symm).2).1
  exact meets.covers.word_ne_nil named nothing

/-- A scan does not go past a character that opens neither a gap nor a literal, where no spelling is
found. -/
theorem blocked_cons {c : Char} {more : List Char} (ends : Gap.Ends (c :: more))
    (missing : symbols.lookup (c :: more) = none) (other : Literal.opens c = false) :
    Blocked symbols (c :: more) := by
  rintro ⟨gap, word, finding⟩ rest ⟨isGap, _, covers⟩ whole
  dsimp only at isGap covers whole
  cases gap with
  | cons d gap =>
    obtain ⟨rfl, _⟩ := List.cons.inj whole
    have opens := isGap.opensGap_head rfl
    obtain ⟨notMark, notBlank⟩ := ends c rfl
    simp [opensGap, notMark, notBlank] at opens
  | nil =>
    rw [List.nil_append] at whole
    rw [whole] at missing
    cases covers with
    | symbol found =>
      rw [found] at missing
      cases missing
    | run head opens _ _ =>
      rw [head, List.cons_append] at whole
      rw [(List.cons.inj whole).1, opens] at other
      cases other

/-- A scan goes past a tile, or it never goes past anything again. -/
theorem meets_or_blocked (named : ∀ symbol ∈ symbols.symbols, symbol.spelling ≠ [])
    (position : Nat) (text : List Char) :
    (∃ tile rest, text = tile.gap ++ (tile.word ++ rest) ∧ Meets symbols tile rest) ∨
      Blocked symbols (scan symbols position text).rest := by
  cases opened : (Gap.scan position none text).openedAt with
  | some start =>
    rw [scan, opened]
    dsimp only
    rw [rest_of_openedAt opened]
    exact Or.inr (blocked_nil named)
  | none =>
    obtain ⟨gap, rest, isGap, ends, rfl, stops⟩ := Gap.exists_isGap position opened
    have goesPast (length : Nat) {finding : Finding}
        (covers : Covers symbols (rest.take length) (rest.drop length) finding) :
        ∃ tile more, gap ++ rest = tile.gap ++ (tile.word ++ more) ∧ Meets symbols tile more :=
      ⟨⟨gap, rest.take length, finding⟩, rest.drop length, by rw [List.take_append_drop],
        isGap, by rwa [List.take_append_drop], covers⟩
    cases found : symbols.lookup rest with
    | some entry =>
      rcases entry with ⟨length, token⟩
      have fits := SymbolTable.length_le_of_lookup found
      have covers : Covers symbols (rest.take length) (rest.drop length) (.symbol token) :=
        .symbol (by rw [List.take_append_drop, found, List.length_take_of_le fits])
      exact Or.inl (goesPast length covers)
    | none =>
      cases rest with
      | nil =>
        rw [scan, stops]
        dsimp only
        rw [found]
        exact Or.inr (blocked_nil named)
      | cons c more =>
        cases opens : Literal.opens c with
        | true =>
          obtain ⟨tail, head⟩ := Literal.run_of_opens more opens
          have taken := Literal.take_length_run (c :: more)
          refine Or.inl (goesPast (Literal.run (c :: more)).1.length
            (.run (taken.trans head) opens ?_ ?_))
          · rwa [List.take_append_drop]
          · rw [List.take_append_drop, taken]
        | false =>
          rw [scan, stops]
          dsimp only
          rw [found]
          dsimp only
          rw [opens, if_neg Bool.false_ne_true]
          exact Or.inr (blocked_cons ends found opens)

/-- The lexer that asking once leads to stands behind a scan. -/
theorem exists_behind_of_pull (symbols : SymbolTable) (lexer : Lexer) :
    ∃ pool, (lexer.pull symbols).after =
      behind (scan symbols lexer.position lexer.rest) pool := by
  rw [pull, next_eq, keep]
  cases (scan symbols lexer.position lexer.rest).finding with
  | symbol token => exact ⟨_, rfl⟩
  | literal value =>
    dsimp only
    cases Pool.store value lexer.pool <;> exact ⟨_, rfl⟩
  | finished => exact ⟨_, rfl⟩
  | fault code => exact ⟨_, rfl⟩

/-- What has been passed of a text when a lexer stands in it: whatever tiles follow, the text begins
with tiles up to them.  Or no tiles follow. -/
def Stands (symbols : SymbolTable) (text : List Char) (lexer : Lexer) : Prop :=
  (∃ start, text = start ++ lexer.rest ∧ start.length = lexer.position ∧
    ∀ front rest, lexer.rest = front ++ rest → Passed symbols front rest →
      Passed symbols (start ++ front) rest) ∨
  Blocked symbols lexer.rest

/-- A lexer at the start of a text. -/
theorem stands_ofText (text : List Char) (pool : Pool) :
    Stands symbols text (.ofText text pool) :=
  Or.inl ⟨[], rfl, rfl, fun _ _ _ passed => passed⟩

/-- Asking once more. -/
theorem Stands.pull (named : ∀ symbol ∈ symbols.symbols, symbol.spelling ≠ []) {text : List Char}
    {lexer : Lexer} (h : Stands symbols text lexer) :
    Stands symbols text (lexer.pull symbols).after := by
  obtain ⟨pool, reached⟩ := exists_behind_of_pull symbols lexer
  rw [reached]
  rcases meets_or_blocked named lexer.position lexer.rest with ⟨tile, rest, whole, meets⟩ | blocked
  · rcases h with ⟨start, split, length, longer⟩ | blocked
    · rw [whole, scan_meets meets]
      refine Or.inl ⟨start ++ (tile.gap ++ tile.word), ?_, tile.length_through length, ?_⟩
      · rw [split, whole, List.append_assoc, List.append_assoc]
        rfl
      · intro front more same passed
        have same : rest = front ++ more := same
        subst same
        have extended := longer (tile.gap ++ (tile.word ++ front)) more (by simp [whole])
          (.tile meets passed)
        simpa using extended
    · exact absurd whole (blocked tile rest meets)
  · exact Or.inr blocked

/-- A lexer that asking leads to stands in the text. -/
theorem Asked.stands (named : ∀ symbol ∈ symbols.symbols, symbol.spelling ≠ []) {text : List Char}
    {pool : Pool} {lexer : Lexer} (h : Asked symbols (.ofText text pool) lexer) :
    Stands symbols text lexer := by
  induction h with
  | start => exact stands_ofText text pool
  | pull _ ih => exact ih.pull named

end Lexer

/-- The places where a gap may be put into a text: its start, and the ends of all lexemes that
asking leads to. -/
def IsSeam (symbols : SymbolTable) (text : List Char) (place : Nat) : Prop :=
  place = 0 ∨ ∃ pool lexer token, Lexer.Asked symbols (.ofText text pool) lexer ∧
    (lexer.pull symbols).result = .ok (some token) ∧
    (lexer.pull symbols).after.column.stop = place

/-- At such a place the text in front of it has been passed. -/
theorem IsSeam.exists_passed {symbols : SymbolTable}
    (named : ∀ symbol ∈ symbols.symbols, symbol.spelling ≠ []) {text : List Char} {place : Nat}
    (h : IsSeam symbols text place) :
    ∃ front rest, text = front ++ rest ∧ front.length = place ∧ Passed symbols front rest := by
  rcases h with rfl | ⟨pool, lexer, token, asked, good, stop⟩
  · exact ⟨[], text, rfl, rfl, .nil text⟩
  · have taken : Lexer.next symbols lexer = .ok (some token) (lexer.pull symbols).after := by
      unfold Lexer.pull at good ⊢
      cases result : Lexer.next symbols lexer with
      | ok token? after =>
        rw [result] at good
        cases good
        rfl
      | error fault after =>
        rw [result] at good
        cases good
    obtain ⟨tile, whole, begins, _, column, _⟩ := Lexer.exists_begins_of_next named taken
    rcases asked.stands named with ⟨start, split, length, longer⟩ | blocked
    · refine ⟨start ++ (tile.gap ++ tile.word), (lexer.pull symbols).after.rest, ?_, ?_, ?_⟩
      · rw [split, whole, List.append_assoc, List.append_assoc]
      · rw [tile.length_through length, ← column, stop]
      · have passed :
            Passed symbols (tile.gap ++ (tile.word ++ [])) (lexer.pull symbols).after.rest :=
          .tile begins.meets (.nil _)
        rw [List.append_nil] at passed
        exact longer _ _ (by rw [whole, List.append_assoc]) passed
    · exact absurd whole (blocked tile _ begins.meets)

end TapeCalc
