import TapeCalc.Proofs.Lexer.Context

/-!
# Texts in the place of names

Every name in a text is replaced by another text in parentheses.  The words around the name
are read as before, because no spelling and no literal reaches over a parenthesis, and the
words of the other text are read as they are in it alone.  So the tiles of the new text are
known: they are those of the old one, with a parenthesis, the tiles of the other text and
another parenthesis in the place of each name.

Main definitions:

- {lit}`substitute`: a text with other texts in the place of its names.
- {lit}`Tile.substituted`: what becomes of a tile.

Main results:

- Theorem {lit}`Tile.Places.substitute_eq`: the text of the new tiles.
- Theorem {lit}`Tiled.substituted`: the new tiles are read as what they are found to be.
-/

namespace TapeCalc

/-! ## Substitution in a text -/

/-- What stands for a lexeme: a text in parentheses for a name, and the lexeme itself otherwise. -/
def Lexeme.replaced (texts : Slot → List Char) (text : List Char) (lexeme : Lexeme) : List Char :=
  match lexeme.token with
  | .load slot => '(' :: texts slot ++ [')']
  | _ => lexeme.column.slice text

/-- A text from a position on, with texts in the place of the names among its lexemes. -/
def substitute (texts : Slot → List Char) (text : List Char) : Nat → List Lexeme → List Char
  | position, [] => text.drop position
  | position, lexeme :: lexemes =>
    Span.slice ⟨position, lexeme.column.start⟩ text ++ lexeme.replaced texts text ++
      substitute texts text lexeme.column.stop lexemes

/-! ## Substitution among tiles -/

/-- A text made of tiles and a last gap. -/
structure Tiling where
  tiles : List Tile
  last : List Char

namespace Tiling

/-- The text of a tiling. -/
def text (tiling : Tiling) : List Char := Tile.join tiling.last tiling.tiles

/-- The tiles of a text in parentheses, with a gap in front. -/
def enclosed (tiling : Tiling) (gap : List Char) : List Tile :=
  ⟨gap, ['('], .symbol .leftParen⟩ ::
    (tiling.tiles ++ [⟨tiling.last, [')'], .symbol .rightParen⟩])

end Tiling

namespace Tile

/-- What becomes of a tile: a text in parentheses for a name, and the tile itself otherwise. -/
def substituted (tilings : Slot → Tiling) (tile : Tile) : List Tile :=
  match tile.finding with
  | .symbol (.load slot) => (tilings slot).enclosed tile.gap
  | _ => [tile]

/-- A tile is replaced if it is a name, and stays what it is otherwise. -/
theorem substituted_cases (tilings : Slot → Tiling) (tile : Tile) :
    (∃ slot, tile.finding = .symbol (.load slot) ∧
      tile.substituted tilings = (tilings slot).enclosed tile.gap) ∨
    (∀ slot, tile.finding ≠ .symbol (.load slot)) ∧ tile.substituted tilings = [tile] := by
  rcases tile with ⟨gap, word, finding⟩
  cases finding with
  | symbol token =>
    cases token with
    | load slot => exact Or.inl ⟨slot, rfl, rfl⟩
    | _ => exact Or.inr ⟨by simp, rfl⟩
  | _ => exact Or.inr ⟨by simp, rfl⟩

/-- Tiles in front of others. -/
theorem join_append (last : List Char) (tiles more : List Tile) :
    join last (tiles ++ more) = join (join last more) tiles := by
  induction tiles with
  | nil => rfl
  | cons tile tiles ih => rw [List.cons_append, join_cons, join_cons, ih]

/-- A text behind tiles is part of what follows them. -/
theorem join_rest (last : List Char) (tiles : List Tile) (rest : List Char) :
    join (last ++ rest) tiles = join last tiles ++ rest := by
  induction tiles with
  | nil => rfl
  | cons tile tiles ih => rw [join_cons, join_cons, List.append_assoc, List.append_assoc, ih]

/-- The text of tiles in parentheses in front of others. -/
theorem join_enclosed (tiling : Tiling) (gap last : List Char) (more : List Tile) :
    join last (tiling.enclosed gap ++ more) =
      gap ++ (('(' :: tiling.text ++ [')']) ++ join last more) := by
  have behind : join (join last (⟨tiling.last, [')'], .symbol .rightParen⟩ :: more))
      tiling.tiles = tiling.text ++ ([')'] ++ join last more) := join_rest _ _ _
  rw [Tiling.enclosed, List.cons_append, join_cons, List.append_assoc, join_append]
  rw [List.singleton_append, List.singleton_append, behind]
  simp

/-- The gap of a tile is the part of the text in front of its word. -/
theorem slice_gap (tile : Tile) (front rest : List Char) :
    Span.slice ⟨front.length, (tile.column front.length).start⟩ (front ++ (tile.gap ++ rest)) =
      tile.gap := by
  rw [Span.slice, List.drop_left]
  simp [column]

/-- What becomes of a tile has the text that stands for its lexeme. -/
theorem join_substituted (tilings : Slot → Tiling) {tile : Tile} {token : Token}
    (becomes : tile.finding.Becomes token) (front last rest : List Char) (more : List Tile) :
    join last (tile.substituted tilings ++ more) =
      tile.gap ++ (Lexeme.replaced (fun slot => (tilings slot).text)
        (front ++ (tile.gap ++ (tile.word ++ rest))) ⟨token, tile.column front.length⟩ ++
          join last more) := by
  have word := slice_column tile (rfl : front.length = front.length) rest
  rcases tile with ⟨gap, chars, finding⟩
  cases becomes with
  | symbol token =>
    cases token with
    | load slot => exact join_enclosed (tilings slot) gap last more
    | _ =>
      simp only [Lexeme.replaced, word]
      rfl
  | literal value index =>
    simp only [Lexeme.replaced, word]
    rfl

/-- The text of what becomes of tiles, in front of a last gap. -/
theorem Places.substitute_eq {tilings : Slot → Tiling} {position : Nat} {tiles : List Tile}
    {lexemes : List Lexeme} (h : Places position tiles lexemes) (front last : List Char)
    (length : front.length = position) :
    substitute (fun slot => (tilings slot).text) (front ++ join last tiles) position lexemes =
      join last (tiles.flatMap (substituted tilings)) := by
  induction h generalizing front with
  | nil position =>
    subst length
    exact List.drop_left
  | @cons position tile token tiles lexemes becomes _ ih =>
    subst length
    have rest := ih _ (tile.length_through rfl)
    rw [List.append_assoc, List.append_assoc] at rest
    rw [List.flatMap_cons, join_substituted tilings becomes front last (join last tiles),
      substitute, join_cons, rest, slice_gap, List.append_assoc]

/-- What becomes of tiles agrees with them up to the first name. -/
theorem agrees_substituted (tilings : Slot → Tiling) (last : List Char) (tiles : List Tile) :
    Agrees (join last tiles) (join last (tiles.flatMap (substituted tilings))) := by
  induction tiles with
  | nil => exact .same last
  | cons tile tiles ih =>
    rw [List.flatMap_cons, join_cons]
    rcases tile.substituted_cases tilings with ⟨slot, _, same⟩ | ⟨_, same⟩
    · rw [same, join_enclosed]
      exact .paren .left _ _ _
    · rw [same, List.singleton_append, join_cons]
      exact (ih.append tile.word).append tile.gap

end Tile

/-! ## Reading the new tiles -/

section Tiled

variable {symbols : SymbolTable} (named : ∀ symbol ∈ symbols.symbols, symbol.spelling ≠ [])
  (names : symbols.Unparenthesised)

include named names

/-- A parenthesis behind a gap is read as itself, whatever follows. -/
theorem IsParen.begins {c : Char} {paren : Token} (h : IsParen c paren) {gap : List Char}
    (isGap : IsGap gap) (rest : List Char) : Begins symbols ⟨gap, [c], .symbol paren⟩ rest :=
  ⟨isGap, h.ends rest, .symbol (h.lookup_eq named names rest)⟩

/-- Tiles go on with a parenthesis in the place of the end. -/
theorem Tiled.append_paren {c : Char} {paren : Token} (isParen : IsParen c paren)
    {tiles more : List Tile} {last last' : List Char} (h : Tiled symbols last tiles)
    (rest : Tiled symbols last' more) :
    Tiled symbols last' (tiles ++ ⟨last, [c], .symbol paren⟩ :: more) := by
  induction h with
  | finished gap => exact .tile (isParen.begins named names gap _) rest
  | @tile tile tiles begins _ ih =>
    have goesOn : Tile.join last' (tiles ++ ⟨last, [c], .symbol paren⟩ :: more) =
        Tile.join last tiles ++ c :: Tile.join last' more := by
      rw [Tile.join_append, Tile.join_cons, Tile.join_rest]
      rfl
    have agrees := Agrees.paren isParen (Tile.join last tiles) [] (Tile.join last' more)
    rw [List.append_nil, ← goesOn] at agrees
    exact .tile (begins.agrees named names agrees) ih

/-- A tiled text in parentheses is tiled. -/
theorem Tiled.enclosed {tiling : Tiling} (h : Tiled symbols tiling.last tiling.tiles)
    {gap last : List Char} {more : List Tile} (isGap : IsGap gap) (rest : Tiled symbols last more) :
    Tiled symbols last (tiling.enclosed gap ++ more) := by
  have closed := h.append_paren named names .right rest
  have opened := IsParen.left.begins named names isGap
    (Tile.join last (tiling.tiles ++ ⟨tiling.last, [')'], .symbol .rightParen⟩ :: more))
  rw [Tiling.enclosed, List.cons_append, List.append_assoc]
  exact .tile opened closed

/-- What becomes of tiles is tiled, if the texts that are put in are. -/
theorem Tiled.substituted {tilings : Slot → Tiling}
    (inner : ∀ slot, Tiled symbols (tilings slot).last (tilings slot).tiles) {last : List Char}
    {tiles : List Tile} (h : Tiled symbols last tiles) :
    Tiled symbols last (tiles.flatMap (Tile.substituted tilings)) := by
  induction h with
  | finished gap => exact .finished gap
  | @tile tile tiles begins _ ih =>
    rw [List.flatMap_cons]
    rcases tile.substituted_cases tilings with ⟨slot, _, same⟩ | ⟨_, same⟩
    · rw [same]
      exact (inner slot).enclosed named names begins.gap ih
    · rw [same]
      exact .tile (begins.agrees named names (Tile.agrees_substituted tilings last tiles)) ih

end Tiled

end TapeCalc
