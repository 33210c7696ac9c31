import TapeCalc.Proofs.Lexer.Scan

/-!
# Reading a text to its end

Lexemes are asked for one after the other, and the literals among them go into the pool.
In the end the pool holds the values of the literals, each once and in the order in which
they first occur, and every literal has the index of its own value.

A pool with fewer places leads to the same lexemes if the values fit into it.  So the
lexemes of a text are those that are read with a place for every character.

Main definitions:

- {lit}`Lexer.Yields`: the lexemes up to the end, and the lexer behind them.
- {lit}`lex`: the lexemes of a text, or the first fault met in it.

Main results:

- Theorem {lit}`Lexer.next_cases`: what asking for one lexeme does.
- Theorem {lit}`Lexer.Yields.keeps`: what reading to the end does to the pool.
- Theorem {lit}`lex_eq_ok_iff`: when a text has lexemes only.
-/

namespace TapeCalc

/-! ## Literals among lexemes -/

/-- The value of a lexeme that is a literal of the text. -/
def Lexeme.value? (text : List Char) (lexeme : Lexeme) : Option Float :=
  match lexeme.token with
  | .constant _ => Literal.value? (lexeme.column.slice text)
  | _ => none

/-- The values of the literals among lexemes, in the order of the text. -/
def literalValues (text : List Char) (lexemes : List Lexeme) : List Float :=
  lexemes.filterMap (Lexeme.value? text)

/-- The tokens of lexemes. -/
def tokensOf (lexemes : List Lexeme) : List Token := lexemes.map Lexeme.token

namespace Lexer

/-! ## One lexeme -/

/-- The lexer stands in a text: what is left is the text behind its position. -/
structure Within (text : List Char) (lexer : Lexer) : Prop where
  inside : lexer.position ≤ text.length
  rest : lexer.rest = text.drop lexer.position

/-- What going past one lexeme does: a symbol leaves the pool as it is, and the value of a literal
is stored in it. -/
inductive Takes (symbols : SymbolTable) (text : List Char) (before after : Lexer) :
    Token → Prop where
  | symbol {length : Nat} {token : Token}
      (found : symbols.lookup (text.drop after.column.start) = some (length, token))
      (taken : after.position = after.column.start + length) (same : after.pool = before.pool) :
      Takes symbols text before after token
  | literal {index : Nat} {value : Float} (taken : after.column.start < after.position)
      (read : Literal.value? (after.column.slice text) = some value) (unsigned : HasNoSign value)
      (stored : Pool.store value before.pool = .ok index after.pool) :
      Takes symbols text before after (.constant index)

/-- How the lexer moves when it goes past a lexeme: it stays in the text, the lexeme stands behind
the old position and in front of the new one, and nothing else happens. -/
structure Moves (symbols : SymbolTable) (text : List Char) (before after : Lexer)
    (token : Token) : Prop where
  within : after.Within text
  behind : before.position ≤ after.column.start
  stop : after.column.stop = after.position
  takes : Takes symbols text before after token

/-- What asking for a lexeme leads to: a lexeme, the end of the text, or a fault of the text or of
the pool. -/
theorem next_cases (symbols : SymbolTable) {text : List Char} {before : Lexer}
    (within : before.Within text) :
    match next symbols before with
    | .ok (some token) after => Moves symbols text before after token
    | .ok none after => after.Within text ∧ after.pool = before.pool
    | .error fault _ => fault.code ∈ lexicalFaults ∨
        before.pool.room = 0 ∧ fault.code = before.pool.overflow := by
  have found := finds_scan symbols within.inside
  rw [← within.rest] at found
  rw [next_eq]
  generalize scan symbols before.position before.rest = scan at found
  cases found with
  | symbol behind inside found =>
    exact ⟨⟨inside, rfl⟩, behind, rfl, .symbol found rfl rfl⟩
  | literal behind inside positive unsigned read =>
    simp only [keep]
    cases stored : Pool.store _ before.pool with
    | ok index pool =>
      refine ⟨⟨inside, rfl⟩, behind, rfl, .literal ?_ read unsigned stored⟩
      exact Nat.lt_add_of_pos_right positive
    | error fault pool =>
      obtain ⟨full, rfl, _⟩ := Pool.store_error stored
      exact Or.inr ⟨full, rfl⟩
  | finished behind => exact ⟨⟨Nat.le_refl _, rfl⟩, rfl⟩
  | fault behind inside lexical => exact Or.inl lexical

/-- Going past a lexeme. -/
theorem Within.moves {symbols : SymbolTable} {text : List Char} {before after : Lexer}
    {token : Token} (within : before.Within text)
    (taken : next symbols before = .ok (some token) after) :
    Moves symbols text before after token := by
  have step := next_cases symbols within
  rwa [taken] at step

/-- Coming to the end. -/
theorem Within.ends {symbols : SymbolTable} {text : List Char} {before after : Lexer}
    (within : before.Within text) (ended : next symbols before = .ok none after) :
    after.Within text ∧ after.pool = before.pool := by
  have step := next_cases symbols within
  rwa [ended] at step

/-- Going past a lexeme moves on, if no spelling is empty. -/
theorem Takes.lt {symbols : SymbolTable} {text : List Char} {before after : Lexer} {token : Token}
    (named : ∀ symbol ∈ symbols.symbols, symbol.spelling ≠ [])
    (h : Takes symbols text before after token) : after.column.start < after.position := by
  cases h with
  | symbol found taken _ =>
    obtain ⟨symbol, member, _, length, _⟩ := SymbolTable.exists_of_lookup found
    have positive := List.length_pos_iff.mpr (named symbol member)
    omega
  | literal taken _ _ _ => exact taken

/-- Going past a lexeme adds at most one value to the pool. -/
theorem Takes.size_le {symbols : SymbolTable} {text : List Char} {before after : Lexer}
    {token : Token} (h : Takes symbols text before after token) :
    before.pool.size ≤ after.pool.size ∧ after.pool.size ≤ before.pool.size + 1 := by
  cases h with
  | symbol _ _ same => simp [same]
  | literal _ _ _ stored => exact Pool.size_le_of_store stored

/-! ## All lexemes -/

/-- The lexemes that are read up to the end of the text, and the lexer that is left. -/
inductive Yields (symbols : SymbolTable) : Lexer → List Lexeme → Lexer → Prop where
  | finished {before after : Lexer} (ended : next symbols before = .ok none after) :
      Yields symbols before [] after
  | lexeme {before mid after : Lexer} {token : Token} {lexemes : List Lexeme}
      (taken : next symbols before = .ok (some token) mid)
      (rest : Yields symbols mid lexemes after) :
      Yields symbols before (⟨token, mid.column⟩ :: lexemes) after

section Yields

variable {symbols : SymbolTable} {text : List Char} {before after : Lexer} {lexemes : List Lexeme}

/-- In front of a fault no lexemes up to the end are read. -/
theorem not_yields_of_error {mid : Lexer} {fault : Fault}
    (failed : next symbols before = .error fault mid) : ¬ Yields symbols before lexemes after := by
  intro h
  cases h with
  | finished ended =>
    rw [failed] at ended
    cases ended
  | lexeme taken _ =>
    rw [failed] at taken
    cases taken

/-- At the end no lexemes are read. -/
theorem yields_iff_of_none {mid : Lexer} (ended : next symbols before = .ok none mid) :
    Yields symbols before lexemes after ↔ lexemes = [] ∧ after = mid := by
  constructor
  · intro h
    cases h with
    | finished ended' =>
      rw [ended] at ended'
      cases ended'
      exact ⟨rfl, rfl⟩
    | lexeme taken _ =>
      rw [ended] at taken
      cases taken
  · rintro ⟨rfl, rfl⟩
    exact .finished ended

/-- In front of a lexeme this lexeme is read, and then the others. -/
theorem yields_iff_of_some {mid : Lexer} {token : Token}
    (taken : next symbols before = .ok (some token) mid) :
    Yields symbols before lexemes after ↔
      ∃ rest, lexemes = ⟨token, mid.column⟩ :: rest ∧ Yields symbols mid rest after := by
  constructor
  · intro h
    cases h with
    | finished ended =>
      rw [taken] at ended
      cases ended
    | lexeme taken' rest =>
      rw [taken] at taken'
      cases taken'
      exact ⟨_, rfl, rest⟩
  · rintro ⟨rest, rfl, further⟩
    exact .lexeme taken further

/-- Lexemes are read in one way only. -/
theorem Yields.unique {after' : Lexer} {lexemes' : List Lexeme}
    (h : Yields symbols before lexemes after) (h' : Yields symbols before lexemes' after') :
    lexemes = lexemes' ∧ after = after' := by
  induction h generalizing lexemes' with
  | finished ended =>
    obtain ⟨rfl, rfl⟩ := (yields_iff_of_none ended).mp h'
    exact ⟨rfl, rfl⟩
  | lexeme taken _ ih =>
    obtain ⟨rest, rfl, further⟩ := (yields_iff_of_some taken).mp h'
    obtain ⟨rfl, same⟩ := ih further
    exact ⟨rfl, same⟩

/-- Every lexeme takes at least one character, if no spelling is empty. -/
theorem Yields.length_le (named : ∀ symbol ∈ symbols.symbols, symbol.spelling ≠ [])
    (h : Yields symbols before lexemes after) (within : before.Within text) :
    before.position + lexemes.length ≤ text.length := by
  induction h with
  | finished _ => exact within.inside
  | lexeme taken _ ih =>
    have moves := within.moves taken
    have behind := moves.behind
    have further := moves.takes.lt named
    have rest := ih moves.within
    rw [List.length_cons]
    omega

/-- The pool never shrinks, and it grows by one value a lexeme at most. -/
theorem Yields.size_le (h : Yields symbols before lexemes after) (within : before.Within text) :
    before.pool.size ≤ after.pool.size ∧
      after.pool.size ≤ before.pool.size + lexemes.length := by
  induction h with
  | finished ended => simp [(within.ends ended).2]
  | lexeme taken _ ih =>
    have moves := within.moves taken
    have grown := moves.takes.size_le
    have rest := ih moves.within
    rw [List.length_cons]
    omega

/-- The pool keeps its capacity. -/
theorem Yields.capacity (h : Yields symbols before lexemes after) (within : before.Within text) :
    after.pool.capacity = before.pool.capacity := by
  induction h with
  | finished ended => rw [(within.ends ended).2]
  | lexeme taken _ ih =>
    have moves := within.moves taken
    rw [ih moves.within]
    cases moves.takes with
    | symbol _ _ same => rw [same]
    | literal _ _ _ stored => exact Pool.capacity_of_store stored

/-! ## The pool -/

/-- What reading lexemes does to a pool without signs: its values stay distinct, every literal
finds its own value at its index, and what is added are the values of the literals, each at its
first occurrence. -/
structure Keeps (text : List Char) (lexemes : List Lexeme) (before after : Pool) : Prop where
  distinct : after.Distinct
  append : ∃ more, after.toList = before.toList ++ more
  literal : ∀ lexeme ∈ lexemes, ∀ index, lexeme.token = .constant index →
    ∃ value, lexeme.value? text = some value ∧ after.toList[index]? = some value
  used : ∀ index, before.size ≤ index → index < after.size →
    ∃ lexeme ∈ lexemes, lexeme.token = .constant index
  values : after.toList =
    List.eraseDupsBy.loop (· == ·) (literalValues text lexemes) before.entries

/-- A lexeme that is no literal does nothing to the pool. -/
theorem Keeps.symbol {lexeme : Lexeme} {before after : Pool}
    (plain : ∀ index, lexeme.token ≠ .constant index) (rest : Keeps text lexemes before after) :
    Keeps text (lexeme :: lexemes) before after := by
  have none : lexeme.value? text = none := by
    rw [Lexeme.value?]
    split
    · exact absurd ‹_› (plain _)
    · rfl
  refine ⟨rest.distinct, rest.append, ?_, ?_, ?_⟩
  · intro other member index constant
    rcases List.mem_cons.mp member with rfl | later
    · exact absurd constant (plain index)
    · exact rest.literal other later index constant
  · intro index low high
    obtain ⟨other, member, constant⟩ := rest.used index low high
    exact ⟨other, List.mem_cons_of_mem _ member, constant⟩
  · rw [literalValues, List.filterMap_cons_none none]
    exact rest.values

/-- A literal stores its value, and what is stored later does not change its place. -/
theorem Keeps.constant {lexeme : Lexeme} {before mid after : Pool} {index : Nat} {value : Float}
    (token : lexeme.token = .constant index) (read : lexeme.value? text = some value)
    (unsigned : HasNoSign value) (distinct : before.Distinct)
    (stores : Pool.Stores value before index mid) (rest : Keeps text lexemes mid after) :
    Keeps text (lexeme :: lexemes) before after := by
  obtain ⟨more, grown⟩ := rest.append
  obtain ⟨first, added⟩ := stores.append
  have placed : after.toList[index]? = some value := by
    rw [grown, List.getElem?_append_left, stores.getElem?]
    exact (List.getElem?_eq_some_iff.mp stores.getElem?).1
  refine ⟨rest.distinct, ⟨first ++ more, by rw [grown, added, List.append_assoc]⟩, ?_, ?_, ?_⟩
  · intro other member place constant
    rcases List.mem_cons.mp member with rfl | later
    · rw [token] at constant
      cases constant
      exact ⟨value, read, placed⟩
    · exact rest.literal other later place constant
  · intro place low high
    by_cases late : mid.size ≤ place
    · obtain ⟨other, member, constant⟩ := rest.used place late high
      exact ⟨other, List.mem_cons_of_mem _ member, constant⟩
    · refine ⟨lexeme, List.mem_cons_self, ?_⟩
      rw [token]
      cases stores with
      | known _ => exact absurd low late
      | fresh _ =>
        rw [BoundedStack.size_pushed] at late
        rw [show place = before.size by omega]
  · rw [literalValues, List.filterMap_cons_some read, stores.eraseDups unsigned distinct]
    exact rest.values

/-- Reading to the end does to the pool what reading lexemes does. -/
theorem Yields.keeps (h : Yields symbols before lexemes after) (within : before.Within text)
    (distinct : before.pool.Distinct) : Keeps text lexemes before.pool after.pool := by
  induction h with
  | finished ended =>
    rw [(within.ends ended).2]
    exact ⟨distinct, ⟨[], by simp⟩, by simp, fun _ low high => absurd high (Nat.not_lt.mpr low),
      rfl⟩
  | @lexeme before mid after token lexemes taken _ ih =>
    have moves := within.moves taken
    cases moves.takes with
    | symbol found _ same =>
      obtain ⟨symbol, member, _, _, rfl⟩ := SymbolTable.exists_of_lookup found
      have rest := ih moves.within (same ▸ distinct)
      rw [← same]
      exact rest.symbol (SymbolTable.token_ne_constant member)
    | literal _ read unsigned stored =>
      -- The values are still distinct, so the induction goes on from the larger pool.
      have stores := Pool.stores_of_store distinct unsigned stored
      have rest := ih moves.within (stores.distinct unsigned distinct)
      exact rest.constant rfl read unsigned distinct stores

/-! ## Other capacities -/

/-- The lexer with another number of places for constants in all. -/
def withCapacity (capacity : Nat) (lexer : Lexer) : Lexer :=
  { lexer with pool := lexer.pool.withCapacity capacity }

/-- A lexeme is the same with every pool that its value fits. -/
theorem next_withCapacity {token? : Option Token} {capacity : Nat}
    (h : next symbols before = .ok token? after) (fits : after.pool.size ≤ capacity) :
    next symbols (before.withCapacity capacity) = .ok token? (after.withCapacity capacity) := by
  rw [next_eq, keep] at h ⊢
  dsimp only [withCapacity]
  cases found : (scan symbols before.position before.rest).finding with
  | symbol token =>
    rw [found] at h
    cases h
    rfl
  | literal value =>
    rw [found] at h
    dsimp only at h
    split at h
    · rename_i index pool stored
      cases h
      dsimp only
      rw [Pool.store_withCapacity stored fits]
      rfl
    · cases h
  | finished =>
    rw [found] at h
    cases h
    rfl
  | fault code =>
    rw [found] at h
    cases h

/-- The lexemes are the same with every pool that all values fit. -/
theorem Yields.withCapacity {capacity : Nat} (h : Yields symbols before lexemes after)
    (within : before.Within text) (fits : after.pool.size ≤ capacity) :
    Yields symbols (before.withCapacity capacity) lexemes (after.withCapacity capacity) := by
  induction h with
  | finished ended => exact .finished (next_withCapacity ended fits)
  | @lexeme before mid after token lexemes taken rest ih =>
    have moves := within.moves taken
    have grown := rest.size_le moves.within
    have first := next_withCapacity taken (Nat.le_trans grown.1 fits)
    have all := Yields.lexeme first (ih moves.within fits)
    exact all

end Yields

end Lexer

/-! ## The lexemes of a text -/

/-- The lexemes that asking has brought, or the fault it has brought. -/
def Pull.lexemes : List Pull → Except Fault (List Lexeme)
  | [] => .ok []
  | pull :: rest =>
    match pull.result with
    | .error fault => .error fault
    | .ok none => .ok []
    | .ok (some token) => (lexemes rest).map (⟨token, pull.after.column⟩ :: ·)

/-- The lexemes of a text or the first fault in it.  No literal is refused, because there is a
place for every character. -/
def lex (symbols : SymbolTable) (text : List Char) : Except Fault (List Lexeme) :=
  Pull.lexemes ((Lexer.ofText text (Pool.empty text.length)).pullAll symbols)

namespace Lexer

variable {symbols : SymbolTable} {text : List Char} {lexemes : List Lexeme}

/-- With a round more than characters left, asking brings all lexemes. -/
theorem lexemes_pulls (named : ∀ symbol ∈ symbols.symbols, symbol.spelling ≠ []) {rounds : Nat}
    {lexer : Lexer} (within : lexer.Within text)
    (enough : text.length < lexer.position + rounds) :
    Pull.lexemes (pulls symbols rounds lexer) = .ok lexemes ↔
      ∃ after, Yields symbols lexer lexemes after := by
  -- Each round goes on by a character at least, so the rounds are used up behind the end only.
  induction rounds generalizing lexer lexemes with
  | zero => exact absurd within.inside (Nat.not_le.mpr enough)
  | succ rounds ih =>
    rw [pulls, pull]
    cases result : next symbols lexer with
    | error fault after =>
      refine iff_of_false (fun impossible => ?_) fun ⟨_, yields⟩ => ?_
      · cases impossible
      · exact not_yields_of_error result yields
    | ok token? after =>
      cases token? with
      | none =>
        simp [yields_iff_of_none result, Pull.lexemes, eq_comm]
      | some token =>
        have moves := within.moves result
        have enoughAfter : text.length < after.position + rounds := by
          have behind := moves.behind
          have further := moves.takes.lt named
          omega
        simp only [yields_iff_of_some result, Pull.lexemes]
        constructor
        · intro all
          cases read : Pull.lexemes (pulls symbols rounds after) with
          | error fault =>
            rw [read] at all
            cases all
          | ok rest =>
            rw [read] at all
            cases all
            obtain ⟨last, yields⟩ := (ih moves.within enoughAfter).mp read
            exact ⟨last, rest, rfl, yields⟩
        · rintro ⟨last, rest, rfl, yields⟩
          rw [(ih moves.within enoughAfter).mpr ⟨last, yields⟩]
          rfl

/-- A lexer at the start of a text stands in it. -/
theorem within_ofText (text : List Char) (pool : Pool) : (ofText text pool).Within text :=
  ⟨Nat.zero_le _, rfl⟩

/-- A lexeme takes a character, so what is read from a text fits a pool with a place for each. -/
theorem Yields.size_le_length (named : ∀ symbol ∈ symbols.symbols, symbol.spelling ≠ [])
    {places : Nat} {after : Lexer}
    (h : Yields symbols (ofText text (Pool.empty places)) lexemes after) :
    after.pool.size ≤ text.length := by
  have within := within_ofText text (Pool.empty places)
  have grown := (h.size_le within).2
  have moved := h.length_le named within
  have nothing : (ofText text (Pool.empty places)).pool.size = 0 := rfl
  omega

end Lexer

section Lex

variable {symbols : SymbolTable} {text : List Char} {lexemes : List Lexeme}

/-- A text has lexemes only if reading it to the end meets no fault. -/
theorem lex_eq_ok_iff (named : ∀ symbol ∈ symbols.symbols, symbol.spelling ≠ []) :
    lex symbols text = .ok lexemes ↔
      ∃ after, Lexer.Yields symbols (.ofText text (Pool.empty text.length)) lexemes after :=
  Lexer.lexemes_pulls named (Lexer.within_ofText _ _) (by simp [Lexer.ofText])

/-- Reading a text to its end fills the pool from nothing. -/
theorem keeps_of_yields {places : Nat} {after : Lexer}
    (yields : Lexer.Yields symbols (.ofText text (Pool.empty places)) lexemes after) :
    Lexer.Keeps text lexemes (Pool.empty places) after.pool :=
  yields.keeps (Lexer.within_ofText _ _) (Pool.distinct_empty places)

/-- In the end the pool holds the values of the literals, each once. -/
theorem toList_pool_of_yields {places : Nat} {after : Lexer}
    (yields : Lexer.Yields symbols (.ofText text (Pool.empty places)) lexemes after) :
    after.pool.toList = (literalValues text lexemes).eraseDups :=
  (keeps_of_yields yields).values

/-- As many values are in the pool as the literals have. -/
theorem size_pool_of_yields {places : Nat} {last : Lexer}
    (yields : Lexer.Yields symbols (.ofText text (Pool.empty places)) lexemes last) :
    last.pool.size = (literalValues text lexemes).eraseDups.length := by
  rw [← toList_pool_of_yields yields, BoundedStack.length_toList]

/-- The indices of the literals are those of the pool. -/
theorem constant_mem_iff {places : Nat} {last : Lexer}
    (yields : Lexer.Yields symbols (.ofText text (Pool.empty places)) lexemes last) (index : Nat) :
    .constant index ∈ tokensOf lexemes ↔ index < last.pool.size := by
  have keeps := keeps_of_yields yields
  constructor
  · intro member
    obtain ⟨lexeme, inside, constant⟩ := List.mem_map.mp member
    obtain ⟨value, _, placed⟩ := keeps.literal lexeme inside index constant
    rw [← BoundedStack.length_toList]
    exact (List.getElem?_eq_some_iff.mp placed).1
  · intro placed
    obtain ⟨lexeme, inside, constant⟩ := keeps.used index (Nat.zero_le _) placed
    exact List.mem_map.mpr ⟨lexeme, inside, constant⟩

/-- The indices of the literals are words if there are no more values than words. -/
theorem forall_index_lt_iff {places : Nat} {last : Lexer}
    (yields : Lexer.Yields symbols (.ofText text (Pool.empty places)) lexemes last) (bound : Nat) :
    (∀ index, .constant index ∈ tokensOf lexemes → index < bound) ↔
      (literalValues text lexemes).eraseDups.length ≤ bound := by
  rw [← size_pool_of_yields yields]
  constructor
  · intro below
    refine Nat.le_of_not_lt fun more => ?_
    exact absurd (below bound ((constant_mem_iff yields bound).mpr more)) (Nat.lt_irrefl bound)
  · intro few index member
    exact Nat.lt_of_lt_of_le ((constant_mem_iff yields index).mp member) few

/-- The lexemes of a text are those that are read with a limited pool, if their values fit it. -/
theorem exists_yields_iff (named : ∀ symbol ∈ symbols.symbols, symbol.spelling ≠ [])
    (places : Nat) :
    (∃ last, Lexer.Yields symbols (.ofText text (Pool.empty places)) lexemes last) ↔
      lex symbols text = .ok lexemes ∧
        (literalValues text lexemes).eraseDups.length ≤ places := by
  rw [lex_eq_ok_iff named]
  constructor
  · rintro ⟨last, yields⟩
    have capacity := yields.capacity (Lexer.within_ofText _ _)
    have room : (Lexer.ofText text (Pool.empty places)).pool.capacity = places := by
      simp [Lexer.ofText, Pool.empty, BoundedStack.empty, BoundedStack.capacity, BoundedStack.size]
    refine ⟨⟨_, yields.withCapacity (Lexer.within_ofText _ _)
      (yields.size_le_length named)⟩, ?_⟩
    rw [← size_pool_of_yields yields, ← room, ← capacity]
    exact Nat.le_add_right _ _
  · rintro ⟨⟨last, yields⟩, few⟩
    rw [← size_pool_of_yields yields] at few
    exact ⟨_, yields.withCapacity (Lexer.within_ofText _ _) few⟩

end Lex

end TapeCalc
