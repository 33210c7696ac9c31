import TapeCalc.Proofs.Compiler.Listing
import TapeCalc.Proofs.Lexer.Insertion
import TapeCalc.Proofs.Symbols.LongestMatch
import TapeCalc.Proofs.Text.SameLetters

/-!
# Which names can be read

A name that is bound may have any characters in it.  It may look like a number, hold operators or
comments, and begin like a function or like the other name.  Still a text with the letters of the
name is read as the name and as nothing else, because no spelling in the text is longer than the
text.

Only the first character of a name counts.  Spellings are looked up behind gaps, and gaps are as
long as they can be, so where a spelling is looked up the text does not go on with a blank or a
comment mark.  A name that begins with one of them is bound, but it is never found.

Main definitions:

- {lit}`Slot.nameAmong`: the name that a variable gets in a compilation.
- {lit}`ListingEntry.slot?`: the variable that an entry of a listing loads.

Main results:

- Theorem {lit}`Lexer.yields_of_sameLetters`: a text with the letters of a name.
- Theorem {lit}`Lexer.Yields.not_opensGap`: the names that are found in a text.
- Theorem {lit}`Compiled.slots_eq`: the variables that a compiled program loads.
- Theorem {lit}`readable_names`: which names can be read.
-/

namespace TapeCalc

/-- The name that a variable gets in a compilation. -/
def Slot.nameAmong (xName yName : String) : Slot → String
  | x => xName
  | y => yName

namespace SymbolTable

variable {table : SymbolTable}

/-- No fixed spelling is read as a variable. -/
theorem token_ne_load_of_builtins (slot : Slot) :
    ∀ symbol ∈ builtins, symbol.token ≠ .load slot := by
  cases slot <;> decide

/-- A symbol that is read as a variable is a name of the variable. -/
theorem exists_binding_of_load {symbol : Symbol} {slot : Slot} (member : symbol ∈ table.symbols)
    (loads : symbol.token = .load slot) : ⟨symbol.spelling, slot⟩ ∈ table.bindings := by
  rcases mem_symbols.mp member with ⟨binding, bound, rfl⟩ | fixed
  · cases loads
    exact bound
  · exact absurd loads (token_ne_load_of_builtins slot symbol fixed)

/-- The names in the table of a compilation are those that the variables get. -/
theorem mem_bindings_iff_nameAmong {xName yName : String} (bound : ofNames xName yName = .ok table)
    {name : List Char} {slot : Slot} :
    ⟨name, slot⟩ ∈ table.bindings ↔
      slot.nameAmong xName yName ≠ "" ∧ name = (slot.nameAmong xName yName).toList := by
  rw [mem_bindings_of_ofNames bound]
  cases slot <;> simp [Slot.nameAmong]

/-- In a text with the letters of a name nothing is found but the name. -/
theorem lookup_of_sameLetters (distinct : table.Distinct) {binding : Binding}
    (bound : binding ∈ table.bindings) {text : List Char} (same : SameLetters binding.name text) :
    table.lookup text = some (text.length, .load binding.slot) := by
  have member : binding.symbol ∈ table.symbols := mem_symbols.mpr (Or.inl ⟨binding, bound, rfl⟩)
  have starts : startsWith binding.symbol.spelling text = true :=
    (startsWith_iff_sameLetters same.length_eq.symm).mpr same
  refine (lookup_eq_some_iff distinct).mpr ⟨binding.symbol, ⟨member, starts, ?_⟩, ?_, rfl⟩
  · intro other _ otherStarts
    have short := startsWith_length otherStarts
    rwa [same.length_eq] at short
  · exact same.length_eq.symm

end SymbolTable

/-! ## Texts with the letters of a name -/

/-- Characters that a gap may begin with have one form. -/
theorem oneFormed_opensGap : OneFormed opensGap := fun _ => hasOneForm_of_opensGap

/-- No gap goes on in a text whose first character opens none. -/
theorem Gap.ends_of_not_opensGap {c : Char} {rest : List Char} (plain : opensGap c = false) :
    Gap.Ends (c :: rest) := by
  intro d head
  cases head
  simpa [opensGap, and_comm] using plain

namespace Lexer

variable {symbols : SymbolTable}

/-- A text with the letters of a name is read as the name, if the name does not begin with a
character that opens a gap.  Nothing goes into the pool. -/
theorem yields_of_sameLetters (named : ∀ symbol ∈ symbols.symbols, symbol.spelling ≠ [])
    (distinct : symbols.Distinct) {first : Char} {more text : List Char} {slot : Slot}
    (bound : ⟨first :: more, slot⟩ ∈ symbols.bindings) (plain : opensGap first = false)
    (same : SameLetters (first :: more) text) (pool : Pool) :
    ∃ last, Yields symbols (.ofText text pool) [⟨.load slot, ⟨0, text.length⟩⟩] last ∧
      last.pool = pool := by
  have found := SymbolTable.lookup_of_sameLetters distinct bound same
  have ends : Gap.Ends text := by
    cases same with
    | cons letter _ =>
      exact Gap.ends_of_not_opensGap ((oneFormed_opensGap.eq_of_upper_eq letter).trans plain)
  let tile : Tile := ⟨[], text, .symbol (.load slot)⟩
  have begins : Begins symbols tile [] :=
    ⟨.nil, by rwa [List.append_nil], .symbol (by rwa [List.append_nil])⟩
  let mid : Lexer := behind (scanOf tile 0 []) pool
  have taken : next symbols (.ofText text pool) = .ok (some (.load slot)) mid :=
    next_of_begins begins (by simp [tile, ofText])
  have whole : mid.column = ⟨0, text.length⟩ := by
    simp [mid, behind, scanOf, tile, Tile.column]
  have ended : next symbols mid = .ok none (behind (scan symbols mid.position []) pool) := by
    rw [next_eq, show mid.rest = [] from rfl, keep, scan_last named .nil]
    rfl
  have yields := Yields.lexeme taken (.finished ended)
  rw [whole] at yields
  exact ⟨_, yields, rfl⟩

/-! ## Names that open a gap -/

/-- What is read as a lexeme is the word of a tile in front of the rest of the text. -/
theorem Yields.exists_begins (named : ∀ symbol ∈ symbols.symbols, symbol.spelling ≠ [])
    {before after : Lexer} {lexemes : List Lexeme} (h : Yields symbols before lexemes after) :
    ∀ lexeme ∈ lexemes, ∃ tile rest, Begins symbols tile rest ∧
      tile.finding.Becomes lexeme.token := by
  induction h with
  | finished _ => simp
  | lexeme taken _ ih =>
    intro lexeme member
    rcases List.mem_cons.mp member with rfl | later
    · obtain ⟨tile, _, begins, becomes, _⟩ := exists_begins_of_next named taken
      exact ⟨tile, _, begins, becomes⟩
    · exact ih lexeme later

/-- A spelling that is found where no gap goes on does not begin with a character that opens one. -/
theorem not_opensGap_of_startsWith {first : Char} {more text : List Char} (ends : Gap.Ends text)
    (starts : startsWith (first :: more) text = true) : opensGap first = false := by
  cases text with
  | nil => cases starts
  | cons c rest =>
    rw [startsWith, Bool.and_eq_true] at starts
    have letter : upper c = upper first := eq_of_beq starts.1
    rw [← oneFormed_opensGap.eq_of_upper_eq letter]
    simpa [opensGap, and_comm] using ends c rfl

/-- The names of the variables that are found in a text do not begin with a character that opens a
gap. -/
theorem Yields.not_opensGap (named : ∀ symbol ∈ symbols.symbols, symbol.spelling ≠ [])
    {before after : Lexer} {lexemes : List Lexeme} (h : Yields symbols before lexemes after)
    {slot : Slot} (member : .load slot ∈ tokensOf lexemes) :
    ∃ first more, ⟨first :: more, slot⟩ ∈ symbols.bindings ∧ opensGap first = false := by
  obtain ⟨lexeme, inside, loads⟩ := List.mem_map.mp member
  obtain ⟨tile, rest, begins, becomes⟩ := h.exists_begins named lexeme inside
  have spells := begins.spells
  rw [loads] at becomes
  generalize tile.finding = finding at becomes spells
  cases becomes with
  | symbol token =>
    cases spells with
    | symbol found =>
      obtain ⟨symbol, known, starts, _, token⟩ := SymbolTable.exists_of_lookup found
      have bound := SymbolTable.exists_binding_of_load known token
      cases spelling : symbol.spelling with
      | nil => exact absurd spelling (named symbol known)
      | cons first more =>
        rw [spelling] at starts bound
        exact ⟨first, more, bound, not_opensGap_of_startsWith begins.ends starts⟩

end Lexer

/-! ## Variables of a program -/

/-- The variable that a token stands for. -/
def Token.slot? : Token → Option Slot
  | load slot => some slot
  | _ => none

/-- An operator stands for no variable. -/
theorem Rank.slot?_of_operator? {rank : Rank} {token : Token} {op : BinaryOp}
    (h : rank.operator? token = some op) : token.slot? = none := by
  cases token with
  | load slot => cases rank <;> cases h
  | _ => rfl

/-- A closing parenthesis stands for no variable. -/
theorem slots_rightParen (tokens : List Token) :
    (tokens ++ [Token.rightParen]).filterMap Token.slot? = tokens.filterMap Token.slot? := by
  simp [Token.slot?]

namespace ListingEntry

variable {constants : List Float}

/-- The variable that an entry loads. -/
def slot? : ListingEntry → Option Slot
  | instruction (.load slot) => some slot
  | _ => none

/-- The entry that loads a constant loads no variable. -/
theorem slots_loadConst (index : Word) (rest : List Word) :
    (ofWords constants (Opcode.loadConst.word :: index :: rest)).filterMap slot? =
      (ofWords constants rest).filterMap slot? := by
  rw [ofWords, Opcode.ofWord?_word]
  dsimp only
  split <;> exact List.filterMap_cons_none rfl

/-- An instruction that loads nothing loads no variable. -/
theorem slots_word {opcode : Opcode} (plain : opcode ≠ .loadConst)
    (other : (instruction opcode).slot? = none) (rest : List Word) :
    (ofWords constants (opcode.word :: rest)).filterMap slot? =
      (ofWords constants rest).filterMap slot? := by
  rw [ofWords_word plain, List.filterMap_cons_none other]

/-- The code of an expression loads the variables of its tokens, in the same order. -/
theorem slots_code {rank : Rank} {tokens : List Token} {expr : Expr}
    (derives : Derives rank tokens expr) (rest : List Word) :
    (ofWords constants (expr.code ++ rest)).filterMap slot? =
      tokens.filterMap Token.slot? ++ (ofWords constants rest).filterMap slot? := by
  induction derives generalizing rest with
  | single _ _ ih => exact ih rest
  | more _ isOperator _ ihFirst ihLast =>
    rw [Expr.code, List.append_assoc, List.append_assoc, ihFirst, ihLast, List.filterMap_append,
      List.filterMap_cons_none (Rank.slot?_of_operator? isOperator), List.append_assoc]
    exact congrArg _ (congrArg _ (slots_word (by simp) rfl rest))
  | literal index => exact slots_loadConst _ rest
  | load slot =>
    exact (congrArg _ (ofWords_word (by simp) rest)).trans (List.filterMap_cons_some rfl)
  | pi => exact slots_word (by simp) rfl rest
  | group _ ih =>
    rw [slots_rightParen]
    exact ih rest
  | signed sign _ ih =>
    cases sign with
    | plus => exact ih rest
    | minus =>
      rw [Expr.code, List.append_assoc, ih]
      exact congrArg _ (slots_word (by simp) rfl rest)
  | call op _ ih =>
    rw [Expr.code, List.append_assoc, ih, slots_rightParen]
    exact congrArg _ (slots_word (by simp) rfl rest)

end ListingEntry

namespace Compiled

variable {symbols : SymbolTable} {text : List Char} {limits : Limits} {lexemes : List Lexeme}
  {program : Program}

/-- A compiled program loads the variables of its text, in the order of the text. -/
theorem slots_eq (h : Compiled symbols text limits lexemes program) :
    program.entries.filterMap ListingEntry.slot? =
      (tokensOf lexemes).filterMap Token.slot? := by
  obtain ⟨expr, derives, _⟩ := h.fits
  have loaded := @ListingEntry.slots_code program.constants _ _ _ derives []
  rwa [List.append_nil, ListingEntry.ofWords, List.filterMap_nil, List.append_nil,
    ← h.code expr derives] at loaded

/-- A variable that a compiled program loads is among the tokens of its text. -/
theorem load_mem_tokensOf (h : Compiled symbols text limits lexemes program) {slot : Slot}
    (member : .instruction (.load slot) ∈ program.entries) : .load slot ∈ tokensOf lexemes := by
  have loaded : slot ∈ program.entries.filterMap ListingEntry.slot? :=
    List.mem_filterMap.mpr ⟨_, member, rfl⟩
  rw [h.slots_eq] at loaded
  obtain ⟨token, inside, same⟩ := List.mem_filterMap.mp loaded
  cases token with
  | load slot' =>
    cases same
    exact inside
  | _ => cases same

end Compiled

/-! ## Names that can be read -/

/-- A name of a variable is an expression. -/
theorem derives_load (slot : Slot) : Derives .expression [.load slot] (.load slot) :=
  .single (by decide) (.single (by decide) (.single (by decide) (.load slot)))

/-- A text that is read as a variable and nothing else is compiled to the instruction that loads the
variable. -/
theorem exists_compiled_of_yields_load {symbols : SymbolTable}
    (named : ∀ symbol ∈ symbols.symbols, symbol.spelling ≠ []) {text : List Char} {limits : Limits}
    {slot : Slot} {column : Span} {last : Lexer}
    (yields : Lexer.Yields symbols (.ofText text (Pool.empty limits.maxConstants))
      [⟨.load slot, column⟩] last) (pool : last.pool = Pool.empty limits.maxConstants)
    (room : 1 ≤ limits.maxCodeLen) :
    ∃ program, (compileWith symbols text limits).outcome = .ok program ∧
      program.words = [(Opcode.load slot).word] ∧ program.constants = [] := by
  have fits : (Expr.load slot).Fits limits := ⟨room, Nat.zero_le _⟩
  obtain ⟨program, ok⟩ := ok_of_fits named yields (derives_load slot) fits (by simp [tokensOf])
  obtain ⟨lexemes, compiled⟩ := compiled_of_ok named ok
  obtain ⟨last', reached, yields'⟩ := compiled.yields
  obtain ⟨rfl, rfl⟩ := yields.unique yields'
  refine ⟨program, ok, compiled.code _ (derives_load slot), ?_⟩
  rw [Program.constants, reached, pool]
  rfl

/-- A name that is bound can be read unless it begins with a space, a tab or a backtick.  If it does
not, each text with the letters of the name is compiled to the one instruction that loads its
variable, with an empty pool, whatever else the name looks like.  If it does, no text is compiled
to a tape with this instruction. -/
theorem readable_names {xName yName : String} {symbols : SymbolTable}
    (bound : SymbolTable.ofNames xName yName = .ok symbols) {slot : Slot} {first : Char}
    {more : List Char} (head : (slot.nameAmong xName yName).toList = first :: more) :
    (¬ (first = ' ' ∨ first = '\t' ∨ first = '`') → ∀ (text : String) (limits : Limits),
      text.toList.map upper = (slot.nameAmong xName yName).toList.map upper →
      1 ≤ limits.maxCodeLen →
        ∃ program, compile text xName yName limits = .ok program ∧
          program.words = [(Opcode.load slot).word] ∧ program.constants = []) ∧
    (first = ' ' ∨ first = '\t' ∨ first = '`' → ∀ (text : String) (limits : Limits)
      (program : Program), compile text xName yName limits = .ok program →
        .instruction (.load slot) ∉ program.entries) := by
  have reachable := SymbolTable.reachable_of_ofNames bound
  have named := reachable.spelling_ne_nil
  have opens : opensGap first = true ↔ first = ' ' ∨ first = '\t' ∨ first = '`' := opensGap_iff
  refine ⟨?_, ?_⟩
  · intro plain text limits letters room
    have present : slot.nameAmong xName yName ≠ "" := by
      intro empty
      rw [empty] at head
      cases head
    have member : ⟨first :: more, slot⟩ ∈ symbols.bindings :=
      (SymbolTable.mem_bindings_iff_nameAmong bound).mpr ⟨present, head.symm⟩
    rw [← opens, Bool.not_eq_true] at plain
    rw [head] at letters
    obtain ⟨last, yields, pool⟩ := Lexer.yields_of_sameLetters named
      (SymbolTable.distinct_of_reachable reachable) member plain (sameLetters_iff.mpr letters)
      (Pool.empty limits.maxConstants)
    rw [compile_of_ofNames bound]
    exact exists_compiled_of_yields_load named yields pool room
  · intro blank text limits program compiled loads
    rw [compile_of_ofNames bound] at compiled
    obtain ⟨lexemes, h⟩ := compiled_of_ok named compiled
    obtain ⟨last, _, yields⟩ := h.yields
    obtain ⟨first', more', member, plain⟩ := yields.not_opensGap named (h.load_mem_tokensOf loads)
    -- A variable has one name only, so the name that was found is the one in question.
    have same := ((SymbolTable.mem_bindings_iff_nameAmong bound).mp member).2
    rw [head] at same
    obtain ⟨rfl, _⟩ := List.cons.inj same
    rw [opens.mpr blank] at plain
    cases plain

/-- The name {lit}`2*x+1` is read where it stands, in any letter case, although it looks like a sum.
The name {lit}`\t1` is bound beside it and never found. -/
theorem readable_sum :
    ∃ symbols, SymbolTable.ofNames "2*x+1" "\t1" = .ok symbols ∧
      (∃ program, compile "2*X+1" "2*x+1" "\t1" ⟨1, 0, 0⟩ = .ok program ∧
        program.words = [(Opcode.load .x).word] ∧ program.constants = []) ∧
      ∃ program, compile "\t1" "2*x+1" "\t1" ⟨2, 1, 0⟩ = .ok program ∧
        .instruction (.load .y) ∉ program.entries := by
  have bound : SymbolTable.ofNames "2*x+1" "\t1" =
      .ok ⟨[⟨"2*x+1".toList, .x⟩, ⟨"\t1".toList, .y⟩]⟩ := by rfl
  refine ⟨_, bound, ?_, ?_⟩
  · exact (@readable_names _ _ _ bound .x '2' ['*', 'x', '+', '1'] rfl).1 (by decide) _ _
      (by decide +kernel) (by decide)
  · have accepted : (compile "\t1" "2*x+1" "\t1" ⟨2, 1, 0⟩).isOk = true := by decide +kernel
    cases compiled : compile "\t1" "2*x+1" "\t1" ⟨2, 1, 0⟩ with
    | error fault =>
      rw [compiled] at accepted
      cases accepted
    | ok program =>
      exact ⟨program, rfl, (@readable_names _ _ _ bound .y '\t' ['1'] rfl).2 (by decide) _ _ _
        compiled⟩

end TapeCalc
