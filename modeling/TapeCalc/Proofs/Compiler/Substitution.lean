import TapeCalc.Proofs.Compiler.Correctness
import TapeCalc.Proofs.Compiler.Limits
import TapeCalc.Proofs.Expr.Substitution
import TapeCalc.Proofs.Lexer.Substitution

/-!
# Substitution in source text

Texts in parentheses are put in the place of the names of a text.  The new text has the tiles
of the old one with those of the texts in between, so its tokens are known but for the
indices of its literals: all literals share one pool, and each has the index of its own value
there.  The tokens form an expression again, and only limits can refuse it.

The tree of this expression is the tree of the old text with the trees of the other texts,
in parentheses, in the place of the names.  So a program of the new text evaluates to what
the old program evaluates to, when the variables have the values of the other texts.

Main definitions:

- {lit}`Token.finding`: what a token is found to be when its literals have values.
- {lit}`ParsedText`: a text that is read as an expression.

Main results:

- Theorem {lit}`ParsedText.exists_substituted`: how a text with others put in is read.
- Theorem {lit}`compile_substituted`: compiling and evaluating such a text.
-/

namespace TapeCalc

/-! ## Findings of tokens -/

/-- What a token is found to be, when the literals have values at their indices. -/
def Token.finding (literal : Nat → Float) : Token → Finding
  | .constant index => .literal (literal index)
  | token => .symbol token

/-- An index stands for another one if it has the same value. -/
def SameValue (literal literal' : Nat → Float) (index index' : Nat) : Prop :=
  literal' index' = literal index

namespace Token

variable {literal literal' : Nat → Float}

/-- A token that is found to be a symbol is this symbol. -/
theorem eq_of_finding_eq_symbol {token symbol : Token}
    (h : token.finding literal = .symbol symbol) : token = symbol := by
  cases token <;> cases h <;> rfl

/-- A symbol that is no literal is found to be itself. -/
theorem finding_of_ne_constant {token : Token} (plain : ∀ index, token ≠ .constant index) :
    token.finding literal = .symbol token := by
  cases token with
  | constant index => exact absurd rfl (plain index)
  | _ => rfl

/-- A token that is found to be the same stands for a token, if names may stay. -/
theorem replaces_of_finding_eq {name : Slot → Expr → Prop} {token token' : Token}
    (same : token.finding literal = token'.finding literal')
    (stays : ∀ slot, token = .load slot → name slot (.load slot)) :
    Replaces (SameValue literal literal') name token [token'] := by
  cases token with
  | constant index =>
    cases token' with
    | constant index' =>
      injection same with value
      exact .literal value.symm
    | _ => cases same
  | load slot =>
    rw [eq_of_finding_eq_symbol same.symm]
    exact .load (.load slot) (stays slot rfl)
  | _ =>
    rw [eq_of_finding_eq_symbol same.symm]
    exact .itself (by simp) (by simp)

end Token

/-- Each literal among lexemes has the value that is given for its index. -/
def Valued (text : List Char) (lexemes : List Lexeme) (literal : Nat → Float) : Prop :=
  ∀ lexeme ∈ lexemes, ∀ index, lexeme.token = .constant index →
    lexeme.value? text = some (literal index)

/-- A word that is read as a token is found to be what the token is found to be. -/
theorem Spells.finding_eq {symbols : SymbolTable} {word rest : List Char} {finding : Finding}
    {token : Token} {literal : Nat → Float} (h : Spells symbols word rest finding)
    (becomes : finding.Becomes token)
    (valued : ∀ index, token = .constant index → Literal.value? word = some (literal index)) :
    token.finding literal = finding := by
  cases h with
  | symbol found =>
    obtain ⟨symbol, member, _, _, rfl⟩ := SymbolTable.exists_of_lookup found
    cases becomes
    exact Token.finding_of_ne_constant (SymbolTable.token_ne_constant member)
  | literal _ _ _ _ read =>
    cases becomes with
    | literal value index =>
      rw [valued index rfl] at read
      cases read
      rfl

/-- The tokens of tiles are found to be what their words are found to be. -/
theorem Tile.Places.findings_eq {symbols : SymbolTable} {position : Nat} {tiles : List Tile}
    {lexemes : List Lexeme} (h : Places position tiles lexemes) {last : List Char}
    (tiled : Tiled symbols last tiles) (front : List Char) (length : front.length = position)
    {literal : Nat → Float} (valued : Valued (front ++ join last tiles) lexemes literal) :
    (tokensOf lexemes).map (Token.finding literal) = tiles.map Tile.finding := by
  induction h generalizing front with
  | nil position => rfl
  | @cons position tile token tiles lexemes becomes _ ih =>
    cases tiled with
    | tile begins rest =>
      have first : token.finding literal = tile.finding := by
        refine begins.spells.finding_eq becomes fun index constant => ?_
        have read := valued _ List.mem_cons_self index constant
        subst constant
        rw [← slice_column tile length (join last tiles)]
        exact read
      have others := ih rest _ (tile.length_through length) (by
        rw [List.append_assoc, List.append_assoc]
        exact fun lexeme member => valued lexeme (List.mem_cons_of_mem _ member))
      rw [tokensOf, List.map_cons, List.map_cons, List.map_cons, first]
      exact congrArg (_ :: ·) others

/-! ## Lexemes of tiled texts -/

section Lexemes

variable {symbols : SymbolTable} (named : ∀ symbol ∈ symbols.symbols, symbol.spelling ≠ [])

include named

/-- A text with lexemes is tiled. -/
theorem exists_tiling_of_lex {text : List Char} {lexemes : List Lexeme}
    (read : lex symbols text = .ok lexemes) :
    ∃ tiling : Tiling, tiling.text = text ∧ Tiled symbols tiling.last tiling.tiles ∧
      Tile.Places 0 tiling.tiles lexemes := by
  obtain ⟨after, yields⟩ := (lex_eq_ok_iff named).mp read
  obtain ⟨last, tiles, whole, tiled, places⟩ := yields.exists_tiled named
  exact ⟨⟨tiles, last⟩, whole.symm, tiled, places⟩

/-- A tiled text has lexemes. -/
theorem exists_lex_of_tiled {tiling : Tiling} (tiled : Tiled symbols tiling.last tiling.tiles) :
    ∃ lexemes, lex symbols tiling.text = .ok lexemes ∧ Tile.Places 0 tiling.tiles lexemes := by
  -- Places enough for all words make the pool take every value.
  let places := tiling.text.length + tiling.tiles.length
  have room : tiling.tiles.length ≤ (Lexer.ofText tiling.text (Pool.empty places)).pool.room :=
    Nat.le_add_left _ _
  obtain ⟨lexemes, after, yields, placed⟩ := Lexer.exists_yields_of_tiled named tiled rfl room
  have read := (exists_yields_iff named places).mp ⟨after, yields⟩
  exact ⟨lexemes, read.1, placed⟩

/-- The literals of a text have values for their indices. -/
theorem exists_valued_of_lex {text : List Char} {lexemes : List Lexeme}
    (read : lex symbols text = .ok lexemes) : ∃ literal, Valued text lexemes literal := by
  obtain ⟨last, yields⟩ := (lex_eq_ok_iff named).mp read
  refine ⟨fun index => (last.pool.toList[index]?).getD 0, ?_⟩
  intro lexeme member index constant
  obtain ⟨value, found, placed⟩ := (keeps_of_yields yields).literal lexeme member index constant
  dsimp only
  rw [found, placed]
  rfl

end Lexemes

/-! ## Parsed texts -/

/-- A text that is read as an expression: its tiles, its lexemes, the values of its literals, and
its tree. -/
structure ParsedText (symbols : SymbolTable) (text : List Char) where
  tiling : Tiling
  lexemes : List Lexeme
  literal : Nat → Float
  expr : Expr
  text_eq : tiling.text = text
  tiled : Tiled symbols tiling.last tiling.tiles
  places : Tile.Places 0 tiling.tiles lexemes
  read : lex symbols text = .ok lexemes
  findings : (tokensOf lexemes).map (Token.finding literal) = tiling.tiles.map Tile.finding
  derives : Derives .expression (tokensOf lexemes) expr

/-- A program evaluates to what the expression evaluates to that its text is read as. -/
theorem exists_parsedText_of_ok {symbols : SymbolTable} {text : List Char} {limits : Limits}
    (named : ∀ symbol ∈ symbols.symbols, symbol.spelling ≠ []) {program : Program}
    (h : (compileWith symbols text limits).outcome = .ok program) :
    ∃ reading : ParsedText symbols text,
      ∀ x y, program.evaluate x y = reading.expr.evaluate (.of x y reading.literal) := by
  obtain ⟨lexemes, compiled⟩ := compiled_of_ok named h
  obtain ⟨expr, derives, _⟩ := compiled.fits
  have read := (compiled.lex_eq named).1
  obtain ⟨tiling, rfl, tiled, places⟩ := exists_tiling_of_lex named read
  have valued : Valued tiling.text lexemes (Compiled.constant program) :=
    fun lexeme member index constant => (compiled.constants member constant).1
  have findings := places.findings_eq tiled [] rfl valued
  exact ⟨⟨tiling, lexemes, Compiled.constant program, expr, rfl, tiled, places, read, findings,
    derives⟩, fun x y => compiled.evaluate_eq derives x y⟩

/-! ## What stands for a name -/

/-- A name that stays what it is. -/
def Stays (slot : Slot) (expr : Expr) : Prop := expr = .load slot

/-- What stands for a name: the expression of a text in parentheses, but with other indices for its
literals. -/
def InParentheses (exprs : Slot → Expr) (literals : Slot → Nat → Float) (literal' : Nat → Float)
    (slot : Slot) (expr : Expr) : Prop :=
  ∃ inner, expr = .group inner ∧
    (exprs slot).Substituted (SameValue (literals slot) literal') Stays inner

/-- The new tree evaluates to what the old one evaluates to, when the variables have the values of
the trees that have been put in. -/
theorem evaluate_eq_of_inParentheses {exprs : Slot → Expr} {literals : Slot → Nat → Float}
    {literal literal' : Nat → Float} {expr expr' : Expr}
    (h : expr.Substituted (SameValue literal literal')
      (InParentheses exprs literals literal') expr')
    {x y u v : Float} (valueX : (exprs .x).evaluate (.of x y (literals .x)) = .ok u)
    (valueY : (exprs .y).evaluate (.of x y (literals .y)) = .ok v) :
    expr'.evaluate (.of x y literal') = expr.evaluate (.of u v literal) := by
  refine h.evaluate_eq (fun _ _ same => same) ?_
  rintro slot _ ⟨inner, rfl, substituted⟩
  have same : inner.evaluate (.of x y literal') =
      (exprs slot).evaluate (.of x y (literals slot)) :=
    substituted.evaluate_eq (fun _ _ same => same) fun _ _ stays => by rw [stays]; rfl
  rw [Expr.evaluate, same]
  cases slot with
  | x => exact valueX
  | y => exact valueY

/-! ## Tokens of the new text -/

/-- Tokens that are found to be the same stand for tokens, name for name. -/
theorem replacesAll_of_findings_eq {literal literal' : Nat → Float} {tokens tokens' : List Token}
    (same : tokens.map (Token.finding literal) = tokens'.map (Token.finding literal')) :
    ReplacesAll (SameValue literal literal') Stays tokens tokens' := by
  induction tokens generalizing tokens' with
  | nil =>
    rw [List.map_nil] at same
    rw [List.map_eq_nil_iff.mp same.symm]
    exact .nil
  | cons token tokens ih =>
    rw [List.map_cons] at same
    obtain ⟨token', more, rfl, first, rest⟩ := List.map_eq_cons_iff.mp same.symm
    have first' : Replaces (SameValue literal literal') Stays token [token'] :=
      Token.replaces_of_finding_eq first.symm fun _ _ => rfl
    exact .cons first' (ih rest.symm)

/-- Tokens that are found to be a text in parentheses are in parentheses. -/
theorem exists_inner_of_enclosed {literal : Nat → Float} {tokens : List Token} {tiling : Tiling}
    {gap : List Char}
    (h : tokens.map (Token.finding literal) = (tiling.enclosed gap).map Tile.finding) :
    ∃ inner, tokens = .leftParen :: inner ++ [.rightParen] ∧
      inner.map (Token.finding literal) = tiling.tiles.map Tile.finding := by
  rw [Tiling.enclosed, List.map_cons, List.map_append] at h
  obtain ⟨left, behind, rfl, leftFinding, rest⟩ := List.map_eq_cons_iff.mp h
  obtain ⟨inner, close, rfl, innerFindings, closing⟩ := List.map_eq_append_iff.mp rest
  obtain ⟨right, nothing, rfl, rightFinding, none⟩ := List.map_eq_cons_iff.mp closing
  rw [Token.eq_of_finding_eq_symbol leftFinding, Token.eq_of_finding_eq_symbol rightFinding,
    List.map_eq_nil_iff.mp none]
  exact ⟨inner, rfl, innerFindings⟩

section Replacement

variable {tilings : Slot → Tiling} {literal literal' : Nat → Float} {name : Slot → Expr → Prop}

/-- The tokens of what becomes of a tile stand for the token of the tile. -/
theorem replaces_of_substituted
    (inserted : ∀ slot tokens,
      tokens.map (Token.finding literal') = (tilings slot).tiles.map Tile.finding →
        ∃ expr, Derives .expression tokens expr ∧ name slot (.group expr))
    {tile : Tile} {token : Token} {tokens : List Token}
    (first : token.finding literal = tile.finding)
    (h : tokens.map (Token.finding literal') = (tile.substituted tilings).map Tile.finding) :
    Replaces (SameValue literal literal') name token tokens := by
  rcases tile.substituted_cases tilings with ⟨slot, load, same⟩ | ⟨noName, same⟩
  · rw [same] at h
    obtain ⟨inner, rfl, findings⟩ := exists_inner_of_enclosed h
    obtain ⟨expr, derives, stands⟩ := inserted slot inner findings
    rw [load] at first
    rw [Token.eq_of_finding_eq_symbol first]
    exact .load (.group derives) stands
  · rw [same, List.map_singleton] at h
    obtain ⟨token', rfl, finding⟩ := List.map_eq_singleton_iff.mp h
    refine Token.replaces_of_finding_eq (first.trans finding.symm) ?_
    rintro slot rfl
    exact absurd first.symm (noName slot)

/-- The tokens of what becomes of tiles stand for the tokens of the tiles. -/
theorem replacesAll_of_substituted
    (inserted : ∀ slot tokens,
      tokens.map (Token.finding literal') = (tilings slot).tiles.map Tile.finding →
        ∃ expr, Derives .expression tokens expr ∧ name slot (.group expr))
    {tiles : List Tile} {tokens tokens' : List Token}
    (findings : tokens.map (Token.finding literal) = tiles.map Tile.finding)
    (findings' : tokens'.map (Token.finding literal') =
      (tiles.flatMap (Tile.substituted tilings)).map Tile.finding) :
    ReplacesAll (SameValue literal literal') name tokens tokens' := by
  induction tiles generalizing tokens tokens' with
  | nil =>
    rw [List.map_eq_nil_iff.mp findings, List.map_eq_nil_iff.mp findings']
    exact .nil
  | cons tile tiles ih =>
    rw [List.map_cons] at findings
    rw [List.flatMap_cons, List.map_append] at findings'
    obtain ⟨token, more, rfl, first, rest⟩ := List.map_eq_cons_iff.mp findings
    obtain ⟨piece, more', rfl, first', rest'⟩ := List.map_eq_append_iff.mp findings'
    exact .cons (replaces_of_substituted inserted first first') (ih rest rest')

end Replacement

/-! ## Reading the new text -/

namespace ParsedText

variable {symbols : SymbolTable} {text : List Char} {texts : Slot → List Char}

/-- A text in which others are put in is read as its expression, with their expressions in
parentheses in the place of the names. -/
theorem exists_substituted (named : ∀ symbol ∈ symbols.symbols, symbol.spelling ≠ [])
    (names : symbols.Unparenthesised) (reading : ParsedText symbols text)
    (inserted : ∀ slot, ParsedText symbols (texts slot)) :
    ∃ lexemes, lex symbols (substitute texts text 0 reading.lexemes) = .ok lexemes ∧
      ∀ literal, Valued (substitute texts text 0 reading.lexemes) lexemes literal →
        ∃ expr, Derives .expression (tokensOf lexemes) expr ∧
          reading.expr.Substituted (SameValue reading.literal literal)
            (InParentheses (fun slot => (inserted slot).expr) (fun slot => (inserted slot).literal)
              literal) expr := by
  let tilings := fun slot => (inserted slot).tiling
  let tiling : Tiling :=
    ⟨reading.tiling.tiles.flatMap (Tile.substituted tilings), reading.tiling.last⟩
  have tiled : Tiled symbols tiling.last tiling.tiles :=
    reading.tiled.substituted named names fun slot => (inserted slot).tiled
  have texts_eq : (fun slot => (tilings slot).text) = texts :=
    funext fun slot => (inserted slot).text_eq
  have whole : substitute texts text 0 reading.lexemes = tiling.text :=
    calc
      substitute texts text 0 reading.lexemes =
          substitute (fun slot => (tilings slot).text) reading.tiling.text 0 reading.lexemes := by
        rw [texts_eq, reading.text_eq]
      _ = tiling.text := reading.places.substitute_eq [] reading.tiling.last rfl
  obtain ⟨lexemes, read, places⟩ := exists_lex_of_tiled named tiled
  rw [whole]
  refine ⟨lexemes, read, fun literal valued => ?_⟩
  have findings := places.findings_eq tiled [] rfl valued
  -- The tokens of a text that is put in form its expression with other indices for its literals.
  have forms : ∀ slot tokens,
      tokens.map (Token.finding literal) = (tilings slot).tiles.map Tile.finding →
        ∃ expr, Derives .expression tokens expr ∧
          InParentheses (fun slot => (inserted slot).expr) (fun slot => (inserted slot).literal)
            literal slot (.group expr) := by
    intro slot tokens same
    obtain ⟨inner, derives, substituted⟩ := (inserted slot).derives.substitute
      (replacesAll_of_findings_eq ((inserted slot).findings.trans same.symm))
    exact ⟨inner, derives, inner, rfl, substituted⟩
  exact reading.derives.substitute
    (replacesAll_of_substituted forms reading.findings findings)

end ParsedText

/-! ## Compiling the new text -/

/-- The texts that stand for the two names. -/
def textsOf (forX forY : String) : Slot → List Char
  | .x => forX.toList
  | .y => forY.toList

/-- Texts that compile are put in the place of the names in a text that compiles, in parentheses,
and no name has a parenthesis in it.  The new text is compiled or refused for a limit.  Its program
evaluates to what the old one evaluates to, value or fault, when the variables have the values of
the other texts. -/
theorem compile_substituted {xName yName text forX forY : String}
    (plainX : '(' ∉ xName.toList ∧ ')' ∉ xName.toList)
    (plainY : '(' ∉ yName.toList ∧ ')' ∉ yName.toList)
    {limits limitsX limitsY : Limits} {program programX programY : Program}
    (compiled : compile text xName yName limits = .ok program)
    (compiledX : compile forX xName yName limitsX = .ok programX)
    (compiledY : compile forY xName yName limitsY = .ok programY) :
    ∃ symbols lexemes, SymbolTable.ofNames xName yName = .ok symbols ∧
      lex symbols text.toList = .ok lexemes ∧
      ∀ limits',
        let outcome := compile
          (String.ofList (substitute (textsOf forX forY) text.toList 0 lexemes)) xName yName limits'
        (∃ fault, outcome = .error fault ∧
          fault.code ∈ [.expressionTooLong, .tooManyConstants, .tooDeeplyNested]) ∨
        ∃ program', outcome = .ok program' ∧ ∀ x y u v,
          programX.evaluate x y = .ok u → programY.evaluate x y = .ok v →
            program'.evaluate x y = program.evaluate u v := by
  obtain ⟨symbols, bound⟩ := exists_ofNames_of_compile compiled
  have named := (SymbolTable.reachable_of_ofNames bound).spelling_ne_nil
  have names := SymbolTable.unparenthesised_of_ofNames bound plainX plainY
  rw [compile_of_ofNames bound] at compiled compiledX compiledY
  obtain ⟨reading, value⟩ := exists_parsedText_of_ok named compiled
  obtain ⟨readingX, valueX⟩ := exists_parsedText_of_ok named compiledX
  obtain ⟨readingY, valueY⟩ := exists_parsedText_of_ok named compiledY
  let readings : ∀ slot, ParsedText symbols (textsOf forX forY slot)
    | .x => readingX
    | .y => readingY
  obtain ⟨lexemes, read, substituted⟩ := reading.exists_substituted named names readings
  refine ⟨symbols, reading.lexemes, bound, reading.read, fun limits' => ?_⟩
  dsimp only
  rw [compile_of_ofNames bound, String.toList_ofList]
  cases outcome : (compileWith symbols
    (substitute (textsOf forX forY) text.toList 0 reading.lexemes) limits').outcome with
  | error fault =>
    -- The tokens form an expression whatever places the pool has left, so only limits are reached.
    obtain ⟨literal, valued⟩ := exists_valued_of_lex named read
    obtain ⟨expr, derives, _⟩ := substituted literal valued
    obtain ⟨limit, reported⟩ := limit_of_derives named read derives outcome
    exact Or.inl ⟨fault, rfl, FaultCode.mem_of_limit? reported⟩
  | ok program' =>
    obtain ⟨lexemes', result⟩ := compiled_of_ok named outcome
    obtain rfl : lexemes' = lexemes := Except.ok.inj ((result.lex_eq named).1.symm.trans read)
    -- The literals of all texts have the values that the one pool of the new program gives them.
    obtain ⟨expr, derives, replaced⟩ := substituted (Compiled.constant program')
      fun lexeme member index constant => (result.constants member constant).1
    refine Or.inr ⟨program', rfl, fun x y u v evaluatesX evaluatesY => ?_⟩
    rw [valueX] at evaluatesX
    rw [valueY] at evaluatesY
    rw [result.evaluate_eq derives, value]
    exact evaluate_eq_of_inParentheses replaced evaluatesX evaluatesY

/-- In {lit}`x-2*y` each name is put in the place of the other.  The new text evaluates to what
the old one evaluates to with the values exchanged. -/
theorem compile_exchanged_names :
    ∃ program program', compile "x-2*y" "x" "y" .standard = .ok program ∧
      compile "(y)-2*(x)" "x" "y" .standard = .ok program' ∧
      ∀ x y, program'.evaluate x y = program.evaluate y x := by
  obtain ⟨programX, compiledX, valueX⟩ : ∃ programX,
      compile "y" "x" "y" .standard = .ok programX ∧ ∀ x y, programX.evaluate x y = .ok y :=
    ⟨_, rfl, fun _ _ => rfl⟩
  obtain ⟨programY, compiledY, valueY⟩ : ∃ programY,
      compile "x" "x" "y" .standard = .ok programY ∧ ∀ x y, programY.evaluate x y = .ok x :=
    ⟨_, rfl, fun _ _ => rfl⟩
  obtain ⟨lexemes, read, whole⟩ : ∃ lexemes,
      lex ⟨[⟨['x'], .x⟩, ⟨['y'], .y⟩]⟩ "x-2*y".toList = .ok lexemes ∧
        String.ofList (substitute (textsOf "y" "x") "x-2*y".toList 0 lexemes) = "(y)-2*(x)" :=
    ⟨[⟨.load .x, ⟨0, 1⟩⟩, ⟨.additive .minus, ⟨1, 2⟩⟩, ⟨.constant 0, ⟨2, 3⟩⟩,
      ⟨.multiplicative .times, ⟨3, 4⟩⟩, ⟨.load .y, ⟨4, 5⟩⟩], by decide +kernel, rfl⟩
  cases compiled : compile "x-2*y" "x" "y" .standard with
  | error fault =>
    have succeeds : (compile "x-2*y" "x" "y" .standard).isOk = true := by decide +kernel
    rw [compiled] at succeeds
    cases succeeds
  | ok program =>
    obtain ⟨symbols, lexemes', bound, read', substituted⟩ :=
      compile_substituted (by decide) (by decide) compiled compiledX compiledY
    cases bound
    obtain rfl := Except.ok.inj (read'.symm.trans read)
    rw [whole] at substituted
    rcases substituted .standard with ⟨fault, refused, _⟩ | ⟨program', compiled', same⟩
    · have succeeds : (compile "(y)-2*(x)" "x" "y" .standard).isOk = true := by decide +kernel
      rw [refused] at succeeds
      cases succeeds
    · exact ⟨program, program', rfl, compiled',
        fun x y => same x y y x (valueX x y) (valueY x y)⟩

end TapeCalc
