import TapeCalc.Proofs.Lexer.Answers
import TapeCalc.Proofs.Lexer.Gaps

/-!
# Lexemes tile their text

A text that can be read to its end is made of gaps and words in turn, a gap first and a
gap last.  Each gap is as long as it can be, each word is read as one lexeme, and the
ranges of the lexemes say where the words stand.

How a word is read depends on the text from its first character on, not on its place.  So
tiles are texts without positions, and positions are counted along them.

Main definitions:

- {lit}`Spells`: how a word in front of the rest of a text is read.
- {lit}`Tiled`: a text made of gaps and words that are read.
- {lit}`Tile.Places`: the lexemes of the words, with their ranges.

Main results:

- Theorem {lit}`Lexer.Yields.exists_tiled`: a text that is read to its end is tiled.
- Theorem {lit}`Lexer.exists_yields_of_tiled`: a tiled text is read to its end.
- Theorem {lit}`lexemes_tile_text`: what the lexemes of a text are, for every table.
-/

namespace TapeCalc

/-! ## Tiles -/

/-- How a word in front of the rest of a text is read: as the longest spelling that is found there,
or as a literal where no spelling is found. -/
inductive Spells (symbols : SymbolTable) (word rest : List Char) : Finding → Prop where
  | symbol {token : Token} (found : symbols.lookup (word ++ rest) = some (word.length, token)) :
      Spells symbols word rest (.symbol token)
  | literal {c : Char} {more : List Char} {value : Float} (head : word = c :: more)
      (opens : Literal.opens c = true) (missing : symbols.lookup (word ++ rest) = none)
      (run : (Literal.run (word ++ rest)).1 = word) (read : Literal.value? word = some value) :
      Spells symbols word rest (.literal value)

/-- How a scan goes past a word in front of the rest of a text: as the longest spelling that is
found there, or as the run of a literal, which may turn out to be none. -/
inductive Covers (symbols : SymbolTable) (word rest : List Char) : Finding → Prop where
  | symbol {token : Token} (found : symbols.lookup (word ++ rest) = some (word.length, token)) :
      Covers symbols word rest (.symbol token)
  | run {c : Char} {more : List Char} (head : word = c :: more)
      (opens : Literal.opens c = true) (missing : symbols.lookup (word ++ rest) = none)
      (run : (Literal.run (word ++ rest)).1 = word) : Covers symbols word rest (.ofRun word)

/-- A word with the gap in front of it, and what the word is found to be. -/
structure Tile where
  gap : List Char
  word : List Char
  finding : Finding

namespace Tile

/-- The text that tiles and a last gap make up. -/
def join (last : List Char) : List Tile → List Char
  | [] => last
  | tile :: tiles => tile.gap ++ (tile.word ++ join last tiles)

@[simp] theorem join_nil (last : List Char) : join last [] = last := rfl

@[simp] theorem join_cons (last : List Char) (tile : Tile) (tiles : List Tile) :
    join last (tile :: tiles) = tile.gap ++ (tile.word ++ join last tiles) := rfl

/-- Where the word of a tile stands that begins at a position. -/
def column (tile : Tile) (position : Nat) : Span :=
  ⟨position + tile.gap.length, position + tile.gap.length + tile.word.length⟩

/-- Where the words of tiles stand, the first of which begins at a position. -/
def columns : Nat → List Tile → List Span
  | _, [] => []
  | position, tile :: tiles => tile.column position :: columns (tile.column position).stop tiles

end Tile

/-- A tile in front of the rest of a text: a gap that ends where the word begins, and a word that is
read as what it is found to be. -/
structure Begins (symbols : SymbolTable) (tile : Tile) (rest : List Char) : Prop where
  gap : IsGap tile.gap
  ends : Gap.Ends (tile.word ++ rest)
  spells : Spells symbols tile.word rest tile.finding

/-- A tile in front of the rest of a text that a scan goes past. -/
structure Meets (symbols : SymbolTable) (tile : Tile) (rest : List Char) : Prop where
  gap : IsGap tile.gap
  ends : Gap.Ends (tile.word ++ rest)
  covers : Covers symbols tile.word rest tile.finding

/-- A text made of tiles and a last gap. -/
inductive Tiled (symbols : SymbolTable) (last : List Char) : List Tile → Prop where
  | finished (gap : IsGap last) : Tiled symbols last []
  | tile {tile : Tile} {tiles : List Tile} (begins : Begins symbols tile (Tile.join last tiles))
      (rest : Tiled symbols last tiles) : Tiled symbols last (tile :: tiles)

/-- A word that a scan goes past has at least one character, if no spelling is empty. -/
theorem Covers.word_ne_nil {symbols : SymbolTable} {word rest : List Char} {finding : Finding}
    (named : ∀ symbol ∈ symbols.symbols, symbol.spelling ≠ [])
    (h : Covers symbols word rest finding) : word ≠ [] := by
  cases h with
  | symbol found =>
    obtain ⟨symbol, member, _, length, _⟩ := SymbolTable.exists_of_lookup found
    have positive := List.length_pos_iff.mpr (named symbol member)
    exact List.length_pos_iff.mp (length ▸ positive)
  | run head _ _ _ =>
    rw [head]
    exact List.cons_ne_nil _ _

/-- A scan goes past a word that is read. -/
theorem Spells.covers {symbols : SymbolTable} {word rest : List Char} {finding : Finding}
    (h : Spells symbols word rest finding) : Covers symbols word rest finding := by
  cases h with
  | symbol found => exact .symbol found
  | literal head opens missing run read =>
    have found := Covers.run head opens missing run
    rwa [Finding.ofRun, read] at found

/-- A word that is read has at least one character, if no spelling is empty. -/
theorem Spells.word_ne_nil {symbols : SymbolTable} {word rest : List Char} {finding : Finding}
    (named : ∀ symbol ∈ symbols.symbols, symbol.spelling ≠ [])
    (h : Spells symbols word rest finding) : word ≠ [] :=
  h.covers.word_ne_nil named

/-- A scan goes past a tile that is read. -/
theorem Begins.meets {symbols : SymbolTable} {tile : Tile} {rest : List Char}
    (h : Begins symbols tile rest) : Meets symbols tile rest :=
  ⟨h.gap, h.ends, h.spells.covers⟩

/-! ## Scans of tiled texts -/

namespace Lexer

variable {symbols : SymbolTable}

/-- The scan that finds a tile at a position, in front of the rest of a text. -/
def scanOf (tile : Tile) (position : Nat) (rest : List Char) : Scan :=
  ⟨tile.finding, tile.column position, (tile.column position).stop, rest⟩

/-- What a scan finds when it goes past a tile. -/
theorem scan_meets {tile : Tile} {rest : List Char} (meets : Meets symbols tile rest)
    (position : Nat) :
    scan symbols position (tile.gap ++ (tile.word ++ rest)) = scanOf tile position rest := by
  rcases tile with ⟨gap, word, finding⟩
  obtain ⟨isGap, ends, covers⟩ := meets
  dsimp only at isGap ends covers ⊢
  rw [scan, Gap.scan_append isGap, Gap.scan_of_ends _ ends]
  dsimp only
  cases covers with
  | symbol found =>
    rw [found]
    simp [Gap.taken, scanOf, Tile.column]
  | @run c more head opens missing run =>
    rw [missing, run]
    subst head
    dsimp only [List.cons_append]
    rw [if_pos opens]
    simp [Gap.taken, scanOf, Tile.column]

/-- In front of a tile a scan finds what its word is read as. -/
theorem scan_tile {tile : Tile} {rest : List Char} (begins : Begins symbols tile rest)
    (position : Nat) :
    scan symbols position (tile.gap ++ (tile.word ++ rest)) = scanOf tile position rest :=
  scan_meets begins.meets position

/-- In front of a last gap a scan finds the end, behind the gap. -/
theorem scan_of_isGap (named : ∀ symbol ∈ symbols.symbols, symbol.spelling ≠ []) {last : List Char}
    (gap : IsGap last) (position : Nat) :
    scan symbols position last = (Gap.mk (position + last.length) [] none).taken 0 .finished := by
  have missing : symbols.lookup [] = none := by
    refine Option.eq_none_iff_forall_ne_some.mpr fun entry found => ?_
    obtain ⟨symbol, member, _, length, _⟩ := SymbolTable.exists_of_lookup found
    have short := SymbolTable.length_le_of_lookup found
    exact named symbol member (List.length_eq_zero_iff.mp (by simpa [length] using short))
  have stops : Gap.scan position none last = ⟨position + last.length, [], none⟩ := by
    have all := Gap.scan_append gap position []
    rwa [List.append_nil] at all
  rw [scan, stops]
  dsimp only
  rw [missing]

/-- What is found in front of a last gap is the end. -/
theorem scan_last (named : ∀ symbol ∈ symbols.symbols, symbol.spelling ≠ []) {last : List Char}
    (gap : IsGap last) (position : Nat) :
    (scan symbols position last).finding = .finished :=
  congrArg Scan.finding (scan_of_isGap named gap position)

/-- What a text in front of a scan begins with: a tile, nothing but a gap, or a fault. -/
inductive Splits (symbols : SymbolTable) (position : Nat) : List Char → Prop where
  | tile {tile : Tile} {rest : List Char} (begins : Begins symbols tile rest) :
      Splits symbols position (tile.gap ++ (tile.word ++ rest))
  | finished {last : List Char} (gap : IsGap last) : Splits symbols position last
  | fault {text : List Char} {code : FaultCode}
      (fault : (scan symbols position text).finding = .fault code) : Splits symbols position text

/-- A text whose gap ends in front of a word that is read begins with a tile. -/
theorem Splits.of_spells {position : Nat} {gap rest : List Char} (length : Nat)
    {finding : Finding} (isGap : IsGap gap) (ends : Gap.Ends rest)
    (spells : Spells symbols (rest.take length) (rest.drop length) finding) :
    Splits symbols position (gap ++ rest) := by
  have whole := List.take_append_drop length rest
  have begins : Splits symbols position (gap ++ (rest.take length ++ rest.drop length)) :=
    @Splits.tile symbols position ⟨gap, rest.take length, finding⟩ _
      ⟨isGap, by rwa [whole], spells⟩
  rwa [whole] at begins

/-- Behind a gap a literal is read where no spelling is found, or the text is refused. -/
theorem scan_of_missing {position : Nat} {gap more : List Char} {c : Char} (isGap : IsGap gap)
    (ends : Gap.Ends (c :: more)) (missing : symbols.lookup (c :: more) = none) :
    (scan symbols position (gap ++ c :: more)).finding =
      if Literal.opens c then .ofRun (Literal.run (c :: more)).1 else .fault .notRecognisable := by
  rw [scan, Gap.scan_append isGap, Gap.scan_of_ends _ ends]
  dsimp only
  rw [missing]
  dsimp only
  split <;> rfl

/-- Where no spelling is found a text begins with a literal or is found to be faulty. -/
theorem splits_of_missing {position : Nat} {gap more : List Char} {c : Char} (isGap : IsGap gap)
    (ends : Gap.Ends (c :: more)) (missing : symbols.lookup (c :: more) = none) :
    Splits symbols position (gap ++ c :: more) := by
  have found := @scan_of_missing symbols position gap more c isGap ends missing
  by_cases opens : Literal.opens c = true
  · rw [if_pos opens, Finding.ofRun] at found
    cases read : Literal.value? (Literal.run (c :: more)).1 with
    | none =>
      rw [read] at found
      exact .fault found
    | some value =>
      obtain ⟨tail, head⟩ := Literal.run_of_opens more opens
      have taken := Literal.take_length_run (c :: more)
      have whole := List.take_append_drop (Literal.run (c :: more)).1.length (c :: more)
      refine .of_spells _ isGap ends (.literal (taken.trans head) opens ?_ ?_ (taken.symm ▸ read))
      · rwa [whole]
      · rw [whole, taken]
  · rw [if_neg opens] at found
    exact .fault found

/-- Every text begins with a tile, is a gap, or is found to be faulty. -/
theorem splits (symbols : SymbolTable) (position : Nat) (text : List Char) :
    Splits symbols position text := by
  cases opened : (Gap.scan position none text).openedAt with
  | some start => exact .fault (by rw [scan, opened])
  | none =>
    obtain ⟨gap, rest, isGap, ends, rfl, _⟩ := Gap.exists_isGap position opened
    cases found : symbols.lookup rest with
    | some entry =>
      rcases entry with ⟨length, token⟩
      have fits := SymbolTable.length_le_of_lookup found
      have spells : Spells symbols (rest.take length) (rest.drop length) (.symbol token) :=
        .symbol (by rw [List.take_append_drop, found, List.length_take_of_le fits])
      exact .of_spells length isGap ends spells
    | none =>
      cases rest with
      | nil => exact .finished (by rwa [List.append_nil])
      | cons c more => exact splits_of_missing isGap ends found

/-- A tile that is found leads to the lexeme that its word is read as. -/
theorem next_of_begins {tile : Tile} {rest : List Char} (begins : Begins symbols tile rest)
    {before : Lexer} (whole : before.rest = tile.gap ++ (tile.word ++ rest)) :
    next symbols before = keep (scanOf tile before.position rest) before.pool := by
  rw [next_eq, whole, scan_tile begins]

end Lexer

/-! ## Lexemes of tiles -/

/-- What a finding becomes when it is read: a symbol stays a token, and the value of a literal gets
an index. -/
inductive Finding.Becomes : Finding → Token → Prop where
  | symbol (token : Token) : Becomes (.symbol token) token
  | literal (value : Float) (index : Nat) : Becomes (.literal value) (.constant index)

/-- The lexemes of tiles, the first of which begins at a position. -/
inductive Tile.Places : Nat → List Tile → List Lexeme → Prop where
  | nil (position : Nat) : Places position [] []
  | cons {position : Nat} {tile : Tile} {token : Token} {tiles : List Tile}
      {lexemes : List Lexeme} (becomes : tile.finding.Becomes token)
      (rest : Places (tile.column position).stop tiles lexemes) :
      Places position (tile :: tiles) (⟨token, tile.column position⟩ :: lexemes)

namespace Tile

variable {position : Nat} {tiles : List Tile} {lexemes : List Lexeme}

/-- The ranges of the lexemes are those of the words. -/
theorem Places.columns_eq (h : Places position tiles lexemes) :
    lexemes.map Lexeme.column = columns position tiles := by
  induction h with
  | nil position => rfl
  | cons _ _ ih => exact congrArg (_ :: ·) ih

/-- A tile reaches to the end of the range of its word. -/
theorem length_through (tile : Tile) {front : List Char} (length : front.length = position) :
    (front ++ (tile.gap ++ tile.word)).length = (tile.column position).stop := by
  simp only [List.length_append, length, column, Nat.add_assoc]

/-- A word is the part of the text that its range covers. -/
theorem slice_column (tile : Tile) {front : List Char} (length : front.length = position)
    (rest : List Char) :
    (tile.column position).slice (front ++ (tile.gap ++ (tile.word ++ rest))) = tile.word := by
  subst length
  have start : (tile.column front.length).start = (front ++ tile.gap).length := by
    rw [List.length_append]
    rfl
  rw [Span.slice, start, ← List.append_assoc, List.drop_left]
  simp [column]

/-- The words are the parts of the text that the ranges of the lexemes cover. -/
theorem Places.slices_eq (h : Places position tiles lexemes) (front last : List Char)
    (length : front.length = position) :
    lexemes.map (fun lexeme => lexeme.column.slice (front ++ join last tiles)) =
      tiles.map word := by
  induction h generalizing front with
  | nil position => rfl
  | @cons position tile token tiles lexemes _ _ ih =>
    have rest := ih _ (tile.length_through length)
    simp only [List.append_assoc] at rest
    rw [List.map_cons, List.map_cons, join_cons, slice_column tile length, rest]

/-- No lexeme begins in front of the position where the tiles begin. -/
theorem Places.le_start (h : Places position tiles lexemes) :
    ∀ lexeme ∈ lexemes, position ≤ lexeme.column.start := by
  induction h with
  | nil position => simp
  | @cons position tile token tiles lexemes _ _ ih =>
    intro lexeme member
    rcases List.mem_cons.mp member with rfl | later
    · exact Nat.le_add_right _ _
    · refine Nat.le_trans ?_ (ih lexeme later)
      simp only [column]
      omega

/-- Each lexeme ends behind its beginning, and before the next ones begin. -/
theorem Places.pairwise (h : Places position tiles lexemes)
    (positive : ∀ tile ∈ tiles, tile.word ≠ []) :
    lexemes.Pairwise fun left right =>
      left.column.start < left.column.stop ∧ left.column.stop ≤ right.column.start := by
  induction h with
  | nil position => exact .nil
  | @cons position tile token tiles lexemes _ rest ih =>
    have word := List.length_pos_iff.mpr (positive tile List.mem_cons_self)
    have first : (tile.column position).start < (tile.column position).stop :=
      Nat.lt_add_of_pos_right word
    refine .cons (fun lexeme member => ⟨first, rest.le_start lexeme member⟩) (ih ?_)
    exact fun tile member => positive tile (List.mem_cons_of_mem _ member)

end Tile

namespace Lexer

variable {symbols : SymbolTable} {before after : Lexer} {lexemes : List Lexeme}

/-- What is kept as a lexeme has been found to be one. -/
theorem becomes_of_keep {scan : Scan} {pool : Pool} {token : Token} {mid : Lexer}
    (h : keep scan pool = .ok (some token) mid) :
    scan.finding.Becomes token ∧ mid = behind scan mid.pool := by
  rw [keep] at h
  split at h
  · rename_i found
    cases h
    exact ⟨found ▸ .symbol _, rfl⟩
  · rename_i found
    split at h
    · cases h
      exact ⟨found ▸ .literal _ _, rfl⟩
    · cases h
  · cases h
  · cases h

/-- What is kept as the end has been found to be the end. -/
theorem finished_of_keep {scan : Scan} {pool : Pool} {last : Lexer}
    (h : keep scan pool = .ok none last) : scan.finding = .finished := by
  rw [keep] at h
  split at h
  · cases h
  · split at h <;> cases h
  · assumption
  · cases h

/-- A lexeme that is read is the word of a tile. -/
theorem exists_begins_of_next (named : ∀ symbol ∈ symbols.symbols, symbol.spelling ≠ [])
    {token : Token} {mid : Lexer} (taken : next symbols before = .ok (some token) mid) :
    ∃ tile, before.rest = tile.gap ++ (tile.word ++ mid.rest) ∧ Begins symbols tile mid.rest ∧
      tile.finding.Becomes token ∧ mid.column = tile.column before.position ∧
      mid.position = (tile.column before.position).stop := by
  have kept := taken
  rw [next_eq] at kept
  obtain ⟨becomes, reached⟩ := becomes_of_keep kept
  have split := splits symbols before.position before.rest
  generalize whole : before.rest = text at split
  cases split with
  | @tile tile rest begins =>
    rw [whole, scan_tile begins] at becomes reached
    rw [reached]
    exact ⟨tile, rfl, begins, becomes, rfl, rfl⟩
  | finished gap =>
    rw [whole, scan_last named gap] at becomes
    cases becomes
  | fault fault =>
    rw [whole, fault] at becomes
    cases becomes

/-- Where the end is found there is nothing but a gap. -/
theorem isGap_of_next (ended : next symbols before = .ok none after) : IsGap before.rest := by
  have split := splits symbols before.position before.rest
  generalize whole : before.rest = text at split
  cases split with
  | @tile tile rest begins =>
    rw [next_of_begins begins whole] at ended
    have spells := begins.spells
    rw [show tile.finding = .finished from finished_of_keep ended] at spells
    cases spells
  | finished gap => exact gap
  | fault fault =>
    rw [next_eq, whole, keep, fault] at ended
    cases ended

/-- A text that is read to its end is tiled, and its lexemes are those of the tiles. -/
theorem Yields.exists_tiled (named : ∀ symbol ∈ symbols.symbols, symbol.spelling ≠ [])
    (h : Yields symbols before lexemes after) :
    ∃ last tiles, before.rest = Tile.join last tiles ∧ Tiled symbols last tiles ∧
      Tile.Places before.position tiles lexemes := by
  induction h with
  | finished ended =>
    exact ⟨_, [], rfl, .finished (isGap_of_next ended), .nil _⟩
  | @lexeme before mid after token lexemes taken _ ih =>
    obtain ⟨last, tiles, whole, tiled, places⟩ := ih
    obtain ⟨tile, start, begins, becomes, column, position⟩ := exists_begins_of_next named taken
    rw [whole] at start begins
    rw [position] at places
    refine ⟨last, tile :: tiles, start, .tile begins tiled, ?_⟩
    rw [column]
    exact .cons becomes places

/-- A pool with a free place takes any value. -/
theorem exists_store_of_room (value : Float) {pool : Pool} (room : pool.room ≠ 0) :
    ∃ index after, Pool.store value pool = .ok index after ∧ pool.room ≤ after.room + 1 := by
  rw [Pool.store_eq]
  cases pool.toList.findIdx? (· == value) with
  | some index => exact ⟨index, pool, rfl, Nat.le_succ _⟩
  | none =>
    refine ⟨pool.size, pool.pushed value, if_neg room, ?_⟩
    rw [BoundedStack.room_pushed]
    omega

/-- A tile in front of a lexer is read if there is a place for the value of a literal. -/
theorem exists_next_of_begins {tile : Tile} {rest : List Char}
    (begins : Begins symbols tile rest) (whole : before.rest = tile.gap ++ (tile.word ++ rest))
    (room : before.pool.room ≠ 0) :
    ∃ token pool, tile.finding.Becomes token ∧ before.pool.room ≤ pool.room + 1 ∧
      next symbols before = .ok (some token) (behind (scanOf tile before.position rest) pool) := by
  rw [next_of_begins begins whole]
  rcases tile with ⟨gap, word, finding⟩
  cases begins.spells with
  | @symbol token _ => exact ⟨token, before.pool, .symbol token, Nat.le_succ _, rfl⟩
  | @literal _ _ value _ _ _ _ _ =>
    obtain ⟨index, pool, stored, less⟩ := exists_store_of_room value room
    refine ⟨.constant index, pool, .literal value index, less, ?_⟩
    simp only [keep, scanOf, stored]

/-- A tiled text is read to its end if there is a place for every literal. -/
theorem exists_yields_of_tiled (named : ∀ symbol ∈ symbols.symbols, symbol.spelling ≠ [])
    {last : List Char} {tiles : List Tile} (tiled : Tiled symbols last tiles)
    (whole : before.rest = Tile.join last tiles) (room : tiles.length ≤ before.pool.room) :
    ∃ lexemes after, Yields symbols before lexemes after ∧
      Tile.Places before.position tiles lexemes := by
  induction tiled generalizing before with
  | finished gap =>
    have ended : next symbols before =
        .ok none (behind (scan symbols before.position last) before.pool) := by
      rw [next_eq, whole, Tile.join_nil, keep, scan_last named gap]
    exact ⟨[], _, .finished ended, .nil _⟩
  | @tile tile tiles begins _ ih =>
    rw [List.length_cons] at room
    obtain ⟨token, pool, becomes, less, taken⟩ := exists_next_of_begins begins whole (by omega)
    have placesLeft : tiles.length ≤ pool.room := by omega
    obtain ⟨lexemes, after, yields, places⟩ :=
      @ih (behind (scanOf tile before.position (Tile.join last tiles)) pool) rfl placesLeft
    exact ⟨_, after, .lexeme taken yields, .cons becomes places⟩

end Lexer

/-! ## The lexemes of a text -/

namespace Tiled

variable {symbols : SymbolTable} {last : List Char} {tiles : List Tile}

/-- Every word has at least one character, if no spelling is empty. -/
theorem word_ne_nil (named : ∀ symbol ∈ symbols.symbols, symbol.spelling ≠ [])
    (h : Tiled symbols last tiles) : ∀ tile ∈ tiles, tile.word ≠ [] := by
  induction h with
  | finished _ => simp
  | tile begins _ ih =>
    intro tile member
    rcases List.mem_cons.mp member with rfl | later
    · exact begins.spells.word_ne_nil named
    · exact ih tile later

/-- The gap in front of every word is as long as it can be. -/
theorem longest (h : Tiled symbols last tiles) {front back : List Tile} {tile : Tile}
    (split : tiles = front ++ tile :: back) :
    Gap.Longest tile.gap (tile.word ++ Tile.join last back) := by
  induction h generalizing front with
  | finished _ => simp at split
  | tile begins _ ih =>
    cases front with
    | nil =>
      cases split
      exact Gap.longest_of_ends begins.gap begins.ends
    | cons _ front => exact ih (List.cons.inj split).2

/-- The last gap reaches the end of the text. -/
theorem isGap_last (h : Tiled symbols last tiles) : IsGap last := by
  induction h with
  | finished gap => exact gap
  | tile _ _ ih => exact ih

end Tiled

/-- For every table that binding names leads to, asking for lexemes comes to an end after at most
one answer more than the text has characters.  Where no fault is met, there are no more lexemes
than characters, their ranges are disjoint and in order, and the text consists of gaps and words in
turn: each gap consists of blanks and closed comments and is as long as it can be, each word has at
least one character and is the part of the text that the range of its lexeme covers, and the last
gap reaches the end. -/
theorem lexemes_tile_text {symbols : SymbolTable} (reachable : symbols.Reachable)
    (text : List Char) (pool : Pool) :
    ((Lexer.ofText text pool).pullAll symbols).length ≤ text.length + 1 ∧
      Pull.Closed text ((Lexer.ofText text pool).pullAll symbols) ∧
      ∀ lexemes, Pull.lexemes ((Lexer.ofText text pool).pullAll symbols) = .ok lexemes →
        lexemes.length ≤ text.length ∧
        (lexemes.Pairwise fun left right =>
          left.column.start < left.column.stop ∧ left.column.stop ≤ right.column.start) ∧
        ∃ tiles last, text = Tile.join last tiles ∧
          lexemes.map Lexeme.column = Tile.columns 0 tiles ∧
          (lexemes.map fun lexeme => lexeme.column.slice text) = tiles.map Tile.word ∧
          (∀ tile ∈ tiles, tile.word ≠ []) ∧
          (∀ front tile back, tiles = front ++ tile :: back →
            Gap.Longest tile.gap (tile.word ++ Tile.join last back)) ∧
          Gap.Longest last [] := by
  have named := reachable.spelling_ne_nil
  have within := Lexer.within_ofText text pool
  have answers := Lexer.answers_pullAll named within
  refine ⟨?_, answers.closed within, ?_⟩
  · simpa [Lexer.ofText] using answers.length_le named within
  · intro lexemes read
    obtain ⟨after, yields⟩ := (Lexer.lexemes_pulls named within (by simp [Lexer.ofText])).mp read
    obtain ⟨last, tiles, whole, tiled, places⟩ := yields.exists_tiled named
    have positive := tiled.word_ne_nil named
    change text = Tile.join last tiles at whole
    refine ⟨?_, places.pairwise positive, tiles, last, whole, places.columns_eq, ?_, positive,
      fun front tile back split => tiled.longest split, ?_⟩
    · simpa [Lexer.ofText] using yields.length_le named within
    · subst whole
      exact places.slices_eq [] last rfl
    · exact Gap.longest_of_ends tiled.isGap_last (fun c head => by cases head)

/-- A name with a blank in it is one word, and the comment behind it is part of the next gap. -/
theorem lexemes_tile_spaced_name :
    SymbolTable.Reachable ⟨[⟨"a b".toList, .x⟩]⟩ ∧
      ∃ lexemes tiles last,
        Pull.lexemes ((Lexer.ofText "a b`c` *2 ".toList (Pool.empty 1)).pullAll
          ⟨[⟨"a b".toList, .x⟩]⟩) = .ok lexemes ∧
        lexemes.map Lexeme.column = [⟨0, 3⟩, ⟨7, 8⟩, ⟨8, 9⟩] ∧
        Tile.columns 0 tiles = [⟨0, 3⟩, ⟨7, 8⟩, ⟨8, 9⟩] ∧
        "a b`c` *2 ".toList = Tile.join last tiles := by
  have reachable : SymbolTable.Reachable ⟨[⟨"a b".toList, .x⟩]⟩ :=
    @SymbolTable.Reachable.bind .empty _ "a b" (.load .x) .empty rfl
  have read : Pull.lexemes ((Lexer.ofText "a b`c` *2 ".toList (Pool.empty 1)).pullAll
      ⟨[⟨"a b".toList, .x⟩]⟩) =
      .ok [⟨.load .x, ⟨0, 3⟩⟩, ⟨.multiplicative .times, ⟨7, 8⟩⟩, ⟨.constant 0, ⟨8, 9⟩⟩] := rfl
  obtain ⟨_, _, tile⟩ := lexemes_tile_text reachable "a b`c` *2 ".toList (Pool.empty 1)
  obtain ⟨_, _, tiles, last, whole, columns, _⟩ := tile _ read
  exact ⟨reachable, _, tiles, last, read, rfl, columns.symm, whole⟩

end TapeCalc
