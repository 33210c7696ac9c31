import TapeCalc.Proofs.Expr.Exchange
import TapeCalc.Proofs.Lexer.Reading
import TapeCalc.Proofs.Symbols.LongestMatch

/-!
# Reading with exchanged names

Two names are bound to the two variables in one order or in the other.  The two orders are refused
together.  If they bind, the two tables have the same spellings, and a name stands for the other
variable in the other table.  The spellings alone decide what is found in a text, so everything is
found at the same place, and the lexemes that are read have their variables exchanged.

Main definitions:

- {lit}`SymbolTable.ExchangedIn`: symbols that another table has for the other variable.

Main results:

- Theorem {lit}`SymbolTable.ofNames_error_comm`: the order of names does not matter for a refusal.
- Theorem {lit}`SymbolTable.lookup_exchanged`: the longest spelling in both tables.
- Theorem {lit}`Lexer.next_exchanged`: the next lexeme over both tables.
-/

namespace TapeCalc

/-! ## Tables -/

/-- The symbol with the variables exchanged. -/
def Symbol.exchanged (symbol : Symbol) : Symbol := { symbol with token := symbol.token.exchanged }

/-- Equality of capital forms has no order. -/
theorem sameSpelling_comm (first second : List Char) :
    sameSpelling first second = sameSpelling second first := Bool.beq_comm

/-- Names that do not bind in one order do not bind in the other. -/
theorem NamesClash.symm {xName yName : String} (clash : NamesClash xName yName) :
    NamesClash yName xName := by
  rcases clash with first | second | ⟨named, named', same⟩
  · exact Or.inr (Or.inl first)
  · exact Or.inl second
  · exact Or.inr (Or.inr ⟨named', named, (sameSpelling_comm _ _).trans same⟩)

namespace SymbolTable

/-- Names are refused in both orders, with one fault. -/
theorem ofNames_error_comm {xName yName : String} {fault : Fault}
    (refused : ofNames xName yName = .error fault) : ofNames yName xName = .error fault := by
  obtain ⟨code, clash⟩ := ofNames_eq_error_iff.mp refused
  exact ofNames_eq_error_iff.mpr ⟨code, clash.symm⟩

/-- Every symbol of the table stands in another table with the variables exchanged. -/
def ExchangedIn (table table' : SymbolTable) : Prop :=
  ∀ symbol ∈ table.symbols, symbol.exchanged ∈ table'.symbols

/-- No fixed spelling stands for a variable. -/
theorem exchanged_of_builtins : ∀ symbol ∈ builtins, symbol.exchanged = symbol := by
  decide

/-- Names that are bound in one order stand for the other variables in the other order. -/
theorem exchangedIn_of_ofNames {xName yName : String} {table table' : SymbolTable}
    (bound : ofNames xName yName = .ok table) (bound' : ofNames yName xName = .ok table') :
    table.ExchangedIn table' := by
  intro symbol member
  rcases mem_symbols.mp member with ⟨binding, bindings, rfl⟩ | fixed
  · rcases (mem_bindings_of_ofNames bound binding).mp bindings with ⟨named, rfl⟩ | ⟨named, rfl⟩
    · have other := (mem_bindings_of_ofNames bound' _).mpr (Or.inr ⟨named, rfl⟩)
      exact mem_symbols.mpr (Or.inl ⟨_, other, rfl⟩)
    · have other := (mem_bindings_of_ofNames bound' _).mpr (Or.inl ⟨named, rfl⟩)
      exact mem_symbols.mpr (Or.inl ⟨_, other, rfl⟩)
  · rw [exchanged_of_builtins symbol fixed]
    exact mem_symbols.mpr (Or.inr fixed)

variable {table table' : SymbolTable} {text : List Char}

/-- A longest spelling of one table is a longest spelling of the other. -/
theorem isLongest_exchanged (there : table.ExchangedIn table') (back : table'.ExchangedIn table)
    {symbol : Symbol} (longest : IsLongest table.symbols text symbol) :
    IsLongest table'.symbols text symbol.exchanged where
  member := there symbol longest.member
  starts := longest.starts
  longest other member starts := longest.longest other.exchanged (back other member) starts

/-- In both tables the same spelling is found, for exchanged variables. -/
theorem lookup_exchanged (there : table.ExchangedIn table') (back : table'.ExchangedIn table)
    (distinct : table'.Distinct) (text : List Char) :
    table'.lookup text =
      (table.lookup text).map fun found => (found.1, found.2.exchanged) := by
  obtain ⟨choice, chooses, found⟩ := exists_chooses_lookup table text
  rw [found]
  cases chooses with
  | nothing missing =>
    refine lookup_eq_of_chooses distinct (.nothing fun symbol member => ?_)
    exact missing symbol.exchanged (back symbol member)
  | symbol longest =>
    exact lookup_eq_of_chooses distinct (.symbol (isLongest_exchanged there back longest))

end SymbolTable

/-! ## Lexemes -/

/-- What is found, with the variables exchanged. -/
def Finding.exchanged : Finding → Finding
  | .symbol token => .symbol token.exchanged
  | finding => finding

/-- The lexeme with the variables exchanged. -/
def Lexeme.exchanged (lexeme : Lexeme) : Lexeme := { lexeme with token := lexeme.token.exchanged }

/-- The tokens of lexemes with the variables exchanged. -/
theorem tokensOf_exchanged (lexemes : List Lexeme) :
    tokensOf (lexemes.map Lexeme.exchanged) = (tokensOf lexemes).map Token.exchanged := by
  rw [tokensOf, tokensOf, List.map_map, List.map_map]
  rfl

namespace Lexer

variable {symbols symbols' : SymbolTable} {before after : Lexer} {lexemes : List Lexeme}

/-- Two tables in which the same spellings are found, for exchanged variables. -/
def FindsExchanged (symbols symbols' : SymbolTable) : Prop :=
  ∀ text, symbols'.lookup text =
    (symbols.lookup text).map fun found => (found.1, found.2.exchanged)

/-- What is found at a place, over both tables. -/
theorem scan_exchanged (same : FindsExchanged symbols symbols') (position : Nat)
    (rest : List Char) :
    scan symbols' position rest =
      { scan symbols position rest with
        finding := (scan symbols position rest).finding.exchanged } := by
  simp only [scan]
  generalize Gap.scan position none rest = gap
  rcases gap with ⟨start, left, openedAt⟩
  cases openedAt with
  | some opened => rfl
  | none =>
    dsimp only
    rw [same]
    cases symbols.lookup left with
    | some found => rfl
    | none =>
      cases left with
      | nil => rfl
      | cons c more =>
        dsimp only [Option.map_none]
        split
        · simp only [Gap.taken, Finding.ofRun]
          cases Literal.value? (Literal.run (c :: more)).1 <;> rfl
        · rfl

/-- The next lexeme over both tables. -/
theorem next_exchanged (same : FindsExchanged symbols symbols') (lexer : Lexer) :
    next symbols' lexer =
      match next symbols lexer with
      | .ok token? after => .ok (token?.map Token.exchanged) after
      | .error fault after => .error fault after := by
  rw [next_eq, next_eq, scan_exchanged same]
  generalize scan symbols lexer.position lexer.rest = found
  rcases found with ⟨finding, column, position, rest⟩
  cases finding with
  | literal value =>
    simp only [keep, Finding.exchanged]
    cases Pool.store value lexer.pool <;> rfl
  | _ => rfl

/-- The lexemes up to the end over both tables. -/
theorem Yields.exchanged (same : FindsExchanged symbols symbols')
    (yields : Yields symbols before lexemes after) :
    Yields symbols' before (lexemes.map Lexeme.exchanged) after := by
  induction yields with
  | finished ended => exact .finished (by rw [next_exchanged same, ended]; rfl)
  | lexeme taken _ ih => exact .lexeme (by rw [next_exchanged same, taken]; rfl) ih

end Lexer

end TapeCalc
