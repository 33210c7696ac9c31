import TapeCalc.Proofs.Compiler.State

/-!
# Which texts are compiled

A text is compiled if and only if it consists of lexemes, they form an expression, and
three counts stay within the limits: the words of the code, the different values of the
literals, and the depth of the nesting.  The index of a value is one word, so there are
never more values than words.  The program has the code of every tree the lexemes can be
given.

Main definitions:

- {lit}`Compiled`: what a program has to do with the lexemes it comes from.
- {lit}`Expr.Fits`: an expression that the limits of a compilation allow.

Main results:

- Theorem {lit}`outcomes_of_couples`: the outcomes of two compilations side by side.
- Theorem {lit}`compiled_of_ok`: what a compilation that succeeds has done.
- Theorem {lit}`ok_of_fits`: an expression that fits the limits is compiled.
- Theorem {lit}`compile_ok_iff`: which texts are compiled, and to which words.
-/

namespace TapeCalc

/-! ## Lexemes of a phrase -/

/-- The index of a token that is a literal. -/
def Token.index? : Token → Option Nat
  | .constant index => some index
  | _ => none

/-- An operator is no literal. -/
theorem Rank.index?_of_operator? {rank : Rank} {token : Token} {op : BinaryOp}
    (h : rank.operator? token = some op) : token.index? = none := by
  cases token with
  | constant index => cases rank <;> cases h
  | _ => rfl

/-- The literals of a tree are those of its tokens, in the same order. -/
theorem Derives.literals_eq {rank : Rank} {tokens : List Token} {expr : Expr}
    (derives : Derives rank tokens expr) : expr.literals = tokens.filterMap Token.index? := by
  have inParentheses (tokens : List Token) :
      (tokens ++ [Token.rightParen]).filterMap Token.index? = tokens.filterMap Token.index? := by
    rw [List.filterMap_append, List.filterMap_cons_none rfl, List.filterMap_nil, List.append_nil]
  induction derives with
  | single _ _ ih => exact ih
  | more _ isOperator _ ihFirst ihLast =>
    rw [Expr.literals, ihFirst, ihLast, List.filterMap_append,
      List.filterMap_cons_none (Rank.index?_of_operator? isOperator)]
  | literal _ | load _ | pi => rfl
  | group _ ih => exact ih.trans (inParentheses _).symm
  | signed _ _ ih => exact ih
  | call _ _ ih => exact ih.trans (inParentheses _).symm

/-- The literals of a tree are those of its tokens. -/
theorem Derives.mem_literals_iff {rank : Rank} {tokens : List Token} {expr : Expr}
    (derives : Derives rank tokens expr) (index : Nat) :
    index ∈ expr.literals ↔ .constant index ∈ tokens := by
  have shows (token : Token) : token.index? = some index ↔ token = .constant index := by
    cases token <;> simp [Token.index?]
  simp [derives.literals_eq, shows]

/-! ## What a program comes from -/

/-- An expression whose code and depth the limits of a compilation allow. -/
structure Expr.Fits (limits : Limits) (expr : Expr) : Prop where
  codeLength : expr.codeLength ≤ limits.maxCodeLen
  depth : expr.depth ≤ limits.maxDepth

/-- What a program has to do with the lexemes it comes from: they are all lexemes of the text, they
form an expression that fits the limits, the tape holds its code, the pool the values of the
literals, and the indices of the literals are words. -/
structure Compiled (symbols : SymbolTable) (text : List Char) (limits : Limits)
    (lexemes : List Lexeme) (program : Program) : Prop where
  yields : ∃ last, program.pool = last.pool ∧
    Lexer.Yields symbols (.ofText text (Pool.empty limits.maxConstants)) lexemes last
  fits : ∃ expr, Derives .expression (tokensOf lexemes) expr ∧ expr.Fits limits
  code : ∀ expr, Derives .expression (tokensOf lexemes) expr → program.words = expr.code
  indices : ∀ index, .constant index ∈ tokensOf lexemes → index < UInt16.size

section Compile

variable {symbols : SymbolTable} {text : List Char} {limits : Limits}

/-- The outcome of a compilation is that of its descent. -/
theorem outcome_compileWith (symbols : SymbolTable) (text : List Char) (limits : Limits) :
    (compileWith symbols text limits).outcome =
      match Descent.whole (Compiler.feed symbols) (text.length + 1) limits.maxDepth
        (.start text limits) with
      | .ok () reached => .ok reached.program
      | .error fault _ => .error fault := by
  rw [compileWith]
  split <;> simp_all

/-- Compilations whose descents belong together lead to programs that do, or the first is refused
with the fault of the second or with one that it is cut off by. -/
theorem outcomes_of_couples {symbols symbols' : SymbolTable} {text text' : List Char}
    {limits limits' : Limits} {related : Compiler → Compiler → Prop} {cut : Fault → Prop}
    (runs : Action.Couples related cut
      (Descent.whole (Compiler.feed symbols) (text.length + 1) limits.maxDepth
        (.start text limits))
      (Descent.whole (Compiler.feed symbols') (text'.length + 1) limits'.maxDepth
        (.start text' limits'))) :
    (∃ fault, (compileWith symbols text limits).outcome = .error fault ∧
      (cut fault ∨ (compileWith symbols' text' limits').outcome = .error fault)) ∨
    ∃ reached reached', related reached reached' ∧
      (compileWith symbols text limits).outcome = .ok reached.program ∧
      (compileWith symbols' text' limits').outcome = .ok reached'.program := by
  rw [outcome_compileWith, outcome_compileWith]
  generalize Descent.whole (Compiler.feed symbols) (text.length + 1) limits.maxDepth
    (.start text limits) = result at runs
  generalize Descent.whole (Compiler.feed symbols') (text'.length + 1) limits'.maxDepth
    (.start text' limits') = result' at runs
  cases runs with
  | ok states => exact Or.inr ⟨_, _, states, rfl, rfl⟩
  | fault => exact Or.inl ⟨_, rfl, Or.inr rfl⟩
  | cut cutOff => exact Or.inl ⟨_, rfl, Or.inl cutOff⟩

/-- A constant that has been planted has an index that is a word. -/
theorem lt_of_plantConstant {index : Nat} {before after : Compiler}
    (h : (Compiler.feed symbols).plantConstant index before = .ok () after) :
    index < UInt16.size := by
  obtain ⟨tape, planted, _⟩ := Compiler.onTape_ok h
  exact (Tape.plantConstant_ok planted).2.1

/-- What a whole descent leads to is what the expression leads to once there is a lexeme. -/
theorem complete_of_whole {first reached : Compiler} {rounds maxDepth : Nat}
    (moved : Compiler.advance symbols (.start text limits) = .ok () first)
    (h : Descent.whole (Compiler.feed symbols) rounds maxDepth (.start text limits) =
      .ok () reached) :
    (Compiler.feed symbols).complete rounds maxDepth first = .ok () reached := by
  rw [Feed.whole_of_advance moved] at h
  split at h
  · cases h
  · exact h

/-- The lexemes of a text are fewer than the rounds of its compilation. -/
theorem length_tokensOf_lt (named : ∀ symbol ∈ symbols.symbols, symbol.spelling ≠ []) {places : Nat}
    {lexemes : List Lexeme} {last : Lexer}
    (yields : Lexer.Yields symbols (.ofText text (Pool.empty places)) lexemes last) :
    (tokensOf lexemes).length < text.length + 1 := by
  have short := yields.length_le named (Lexer.within_ofText _ _)
  rw [tokensOf, List.length_map]
  omega

/-- A compilation that succeeds has read all lexemes of the text as an expression. -/
theorem compiled_of_ok (named : ∀ symbol ∈ symbols.symbols, symbol.spelling ≠ [])
    {program : Program} (h : (compileWith symbols text limits).outcome = .ok program) :
    ∃ lexemes, Compiled symbols text limits lexemes program := by
  have ends := Feed.whole_cases (Compiler.lawful symbols) (text.length + 1) limits.maxDepth
    (.start text limits)
  rw [outcome_compileWith] at h
  cases result : Descent.whole (Compiler.feed symbols) (text.length + 1) limits.maxDepth
      (.start text limits) with
  | error fault reached =>
    rw [result] at h
    cases h
  | ok _ reached =>
    rw [result] at h ends
    cases h
    obtain ⟨first, tokens, words, moved, trace, ⟨expr, derives, rfl, depth, planted⟩, finished⟩ :=
      ends
    obtain ⟨lexemes, rfl, looking⟩ := Compiler.looking_of_trace trace finished
    have yields := Compiler.yields_of_looking moved looking
    have empty := Compiler.tape_of_advance moved
    refine ⟨lexemes, ⟨reached.lexer, rfl, yields⟩, ⟨expr, derives, ?_, depth⟩, ?_, ?_⟩
    · obtain ⟨_, room, _⟩ := Compiler.tape_of_trace trace
      rw [empty, Expr.length_code] at room
      exact Nat.le_of_add_right_le (Nat.le_of_eq room.symm)
    · -- Every tree of the lexemes is read, and a descent that has succeeded has not been cut.
      intro other derives'
      have reaches := Feed.reaches_complete (Compiler.steady symbols) derives' limits.maxDepth
        (length_tokensOf_lt named yields) looking.ahead
      rw [complete_of_whole moved result] at reaches
      cases reaches with
      | through trace' goesOn =>
        obtain ⟨same, _⟩ := goesOn
        cases same
        have list := (Compiler.tape_of_trace trace').1
        rw [empty] at list
        exact list
    · intro index member
      obtain ⟨before, after, ok⟩ := planted index ((derives.mem_literals_iff index).mpr member)
      exact lt_of_plantConstant ok

/-- With a place for all of its code and words for the indices of its literals an expression is not
refused by the tape. -/
theorem not_blocked {first : Compiler} {lexemes : List Lexeme} {words : List Word} {fault : Fault}
    (ahead : (Compiler.feed symbols).Ahead (tokensOf lexemes) first)
    (indices : ∀ index, .constant index ∈ tokensOf lexemes → index < UInt16.size)
    (place : words.length ≤ first.tape.room) :
    ¬ (Compiler.feed symbols).Blocked first words fault := by
  rintro ⟨tokens, planted, mid, next, more, trace, declined, rfl⟩
  obtain ⟨_, room, _⟩ := Compiler.tape_of_trace trace
  simp only [List.length_append] at place
  cases declined with
  | plant failed =>
    obtain ⟨cause, tape, refused, _⟩ := Compiler.onTape_error failed
    have full := (Tape.plant_error refused).1
    rw [List.length_singleton] at place
    omega
  | @plantConstant index fault after looking failed =>
    obtain ⟨cause, tape, refused, _⟩ := Compiler.onTape_error failed
    rcases Tape.plantConstant_error refused with ⟨full, _⟩ | ⟨tooLarge, _⟩
    · simp only [List.length_cons] at place
      omega
    · obtain ⟨left, all, further⟩ := trace.ahead (Compiler.steady symbols) ahead
      rw [further.current] at looking
      have member : Token.constant index ∈ tokensOf lexemes := by
        rw [all]
        exact List.mem_append_right _ (List.mem_of_mem_head? looking)
      exact Nat.not_lt.mpr tooLarge (indices index member)

/-- A compilation whose lexemes form an expression plants the code of the expression, or it is
cut. -/
theorem reaches_of_yields (named : ∀ symbol ∈ symbols.symbols, symbol.spelling ≠ [])
    {lexemes : List Lexeme} {last : Lexer} {expr : Expr}
    (yields : Lexer.Yields symbols (.ofText text (Pool.empty limits.maxConstants)) lexemes last)
    (derives : Derives .expression (tokensOf lexemes) expr) :
    ∃ first : Compiler, first.tape = Tape.empty limits.maxCodeLen ∧
      (Compiler.feed symbols).Ahead (tokensOf lexemes) first ∧
      (Compiler.feed symbols).Reaches first expr.code (limits.maxDepth < expr.depth)
        ((Compiler.feed symbols).EndsBefore [])
        (Descent.whole (Compiler.feed symbols) (text.length + 1) limits.maxDepth
          (.start text limits)) := by
  obtain ⟨first, moved, empty, looking⟩ :=
    Compiler.looking_of_yields (.start text limits) yields
  have reaches := Feed.reaches_complete (Compiler.steady symbols) derives limits.maxDepth
    (length_tokensOf_lt named yields) looking.ahead
  have found : (first.current).isNone = false := by
    have current : first.current = (tokensOf lexemes).head? := looking.ahead.current
    rw [current]
    cases tokens : tokensOf lexemes with
    | nil => exact absurd tokens derives.ne_nil
    | cons token tokens => rfl
  have goesOn : Descent.whole (Compiler.feed symbols) (text.length + 1) limits.maxDepth
      (.start text limits) = (Compiler.feed symbols).complete (text.length + 1) limits.maxDepth
        first := by
    rw [Feed.whole_of_advance moved]
    exact if_neg (by simp [Compiler.feed, found])
  rw [goesOn]
  exact ⟨first, empty, looking.ahead, reaches⟩

/-- An expression that fits the limits is compiled. -/
theorem ok_of_fits (named : ∀ symbol ∈ symbols.symbols, symbol.spelling ≠ [])
    {lexemes : List Lexeme} {last : Lexer} {expr : Expr}
    (yields : Lexer.Yields symbols (.ofText text (Pool.empty limits.maxConstants)) lexemes last)
    (derives : Derives .expression (tokensOf lexemes) expr) (fits : expr.Fits limits)
    (indices : ∀ index, .constant index ∈ tokensOf lexemes → index < UInt16.size) :
    ∃ program, (compileWith symbols text limits).outcome = .ok program := by
  obtain ⟨first, empty, ahead, reaches⟩ := reaches_of_yields named yields derives
  rw [outcome_compileWith]
  generalize Descent.whole (Compiler.feed symbols) (text.length + 1) limits.maxDepth
    (.start text limits) = result at reaches
  cases reaches with
  | through _ ended =>
    rw [ended.1]
    exact ⟨_, rfl⟩
  | cut cut =>
    -- Only a full tape, an index that is no word or the depth could have cut the descent.
    rcases cut with blocked | ⟨_, deep⟩
    · refine absurd blocked (not_blocked ahead indices ?_)
      rw [empty, Expr.length_code]
      exact fits.codeLength
    · exact absurd fits.depth (Nat.not_le.mpr deep)

end Compile

/-! ## Acceptance -/

/-- With names that bind, a compilation is that of the text with their symbols. -/
theorem compile_of_ofNames {xName yName : String} {symbols : SymbolTable}
    (bound : SymbolTable.ofNames xName yName = .ok symbols) (text : String) (limits : Limits) :
    compile text xName yName limits = (compileWith symbols text.toList limits).outcome := by
  rw [compile, compilation, bound]

/-- The names of a text that compiles bind. -/
theorem exists_ofNames_of_compile {text xName yName : String} {limits : Limits} {program : Program}
    (compiled : compile text xName yName limits = .ok program) :
    ∃ symbols, SymbolTable.ofNames xName yName = .ok symbols := by
  cases bound : SymbolTable.ofNames xName yName with
  | ok symbols => exact ⟨symbols, rfl⟩
  | error fault =>
    rw [compile, compilation, bound] at compiled
    cases compiled

/-- A text is compiled to the words of an expression exactly when its lexemes form this expression,
its code and its depth are within the limits, and so are the different values of its literals, of
which there are no more than words. -/
theorem compile_ok_iff {xName yName : String} {symbols : SymbolTable}
    (bound : SymbolTable.ofNames xName yName = .ok symbols) (text : String) (limits : Limits)
    (words : List Word) :
    (∃ program, compile text xName yName limits = .ok program ∧ program.words = words) ↔
      ∃ lexemes expr, lex symbols text.toList = .ok lexemes ∧
        Derives .expression (tokensOf lexemes) expr ∧ expr.code = words ∧
        expr.codeLength ≤ limits.maxCodeLen ∧
        (literalValues text.toList lexemes).eraseDups.length ≤ limits.maxConstants ∧
        (literalValues text.toList lexemes).eraseDups.length ≤ UInt16.size ∧
        expr.depth ≤ limits.maxDepth := by
  have named := (SymbolTable.reachable_of_ofNames bound).spelling_ne_nil
  rw [compile_of_ofNames bound]
  constructor
  · rintro ⟨program, ok, rfl⟩
    obtain ⟨lexemes, ⟨last, _, yields⟩, ⟨expr, derives, fits⟩, code, indices⟩ :=
      compiled_of_ok named ok
    obtain ⟨read, few⟩ := (exists_yields_iff named limits.maxConstants).mp ⟨last, yields⟩
    exact ⟨lexemes, expr, read, derives, (code expr derives).symm, fits.codeLength, few,
      (forall_index_lt_iff yields _).mp indices, fits.depth⟩
  · rintro ⟨lexemes, expr, read, derives, rfl, length, few, fewWords, depth⟩
    obtain ⟨last, yields⟩ := (exists_yields_iff named limits.maxConstants).mpr ⟨read, few⟩
    obtain ⟨program, ok⟩ := ok_of_fits named yields derives ⟨length, depth⟩
      ((forall_index_lt_iff yields _).mpr fewWords)
    refine ⟨program, ok, ?_⟩
    -- The program has the code of every tree of its lexemes, and these are read in one way only.
    obtain ⟨lexemes', ⟨last', _, yields'⟩, _, code, _⟩ := compiled_of_ok named ok
    obtain ⟨rfl, _⟩ := yields.unique yields'
    exact code expr derives

/-- A sign in front of a literal, a power sign and a name form a power whose left operand is
signed. -/
theorem derives_signed_power :
    Derives .expression [.additive .minus, .constant 0, .power, .load .x]
      (.binary .pow (.signed .minus (.literal 0)) (.load .x)) := by
  have factor : Derives .factor [.additive .minus, .constant 0] (.signed .minus (.literal 0)) :=
    .signed .minus (.literal 0)
  have base : Derives .power [.additive .minus, .constant 0] (.signed .minus (.literal 0)) :=
    .single (by decide) factor
  have power : Derives .power [.additive .minus, .constant 0, .power, .load .x]
      (.binary .pow (.signed .minus (.literal 0)) (.load .x)) := base.more rfl (.load .x)
  exact .single (by decide) (.single (by decide) power)

/-- The text {lit}`-2^x` is compiled under limits that its five words, its value and its sign use
up. -/
theorem compile_signed_power :
    SymbolTable.ofNames "x" "" = .ok ⟨[⟨['x'], .x⟩]⟩ ∧
      ∃ program, compile "-2^x" "x" "" ⟨5, 1, 1⟩ = .ok program ∧
        program.words =
          (Expr.binary .pow (.signed .minus (.literal 0)) (.load .x)).code := by
  have bound : SymbolTable.ofNames "x" "" = .ok ⟨[⟨['x'], .x⟩]⟩ := rfl
  refine ⟨bound, (compile_ok_iff bound "-2^x" ⟨5, 1, 1⟩ _).mpr
    ⟨[⟨.additive .minus, ⟨0, 1⟩⟩, ⟨.constant 0, ⟨1, 2⟩⟩, ⟨.power, ⟨2, 3⟩⟩, ⟨.load .x, ⟨3, 4⟩⟩],
      _, rfl, derives_signed_power, rfl, ?_⟩⟩
  decide +kernel

end TapeCalc
