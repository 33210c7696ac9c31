import TapeCalc.Symbols

/-!
# Names and spellings

Binding a name fails for one reason only when both variables are free: the name has the
capital form of a symbol that is there already.  So the names of a compilation bind
exactly when they clash neither with a fixed spelling nor with each other.

Main definitions:

- {lit}`NamesClash`: two names that do not bind.

Main results:

- Theorem {lit}`SymbolTable.ofNames_eq_error_iff`: which names do not bind.
- Theorem {lit}`SymbolTable.Reachable.spelling_ne_nil`: no symbol has an empty spelling.
- Theorem {lit}`SymbolTable.longest_of_lookup`: no spelling in a text is longer than the one
  that is found.
-/

namespace TapeCalc

namespace SymbolTable

/-! ## Symbols of a table -/

/-- The symbols of a table are the fixed spellings and the bound names. -/
theorem mem_symbols {table : SymbolTable} {symbol : Symbol} :
    symbol ∈ table.symbols ↔
      (∃ binding ∈ table.bindings, binding.symbol = symbol) ∨ symbol ∈ builtins := by
  rw [symbols, List.mem_append, List.mem_map]

/-- No symbol stands for a literal. -/
theorem token_ne_constant {table : SymbolTable} {symbol : Symbol} (member : symbol ∈ table.symbols)
    (index : Nat) : symbol.token ≠ .constant index := by
  rcases mem_symbols.mp member with ⟨binding, _, rfl⟩ | fixed
  · exact Token.noConfusion
  · simp only [builtins, List.mem_cons, List.not_mem_nil, or_false] at fixed
    rcases fixed with rfl | rfl | rfl | rfl | rfl | rfl | rfl | rfl | rfl | rfl | rfl | rfl | rfl |
      rfl | rfl | rfl | rfl | rfl | rfl | rfl | rfl | rfl <;> exact Token.noConfusion

/-- No fixed spelling is empty. -/
theorem spelling_ne_nil_of_builtins : ∀ symbol ∈ builtins, symbol.spelling ≠ [] := by
  decide

/-! ## Binding a name -/

/-- What binding adds is a name with at least one character, for the variable of the instruction. -/
theorem bindings_of_bind {table after : SymbolTable} {name : String} {opcode : Opcode}
    (h : table.bind name opcode = .ok after) :
    ∃ slot, opcode = .load slot ∧ after.bindings = table.bindings ++ [⟨name.toList, slot⟩] ∧
      name.toList ≠ [] := by
  unfold bind at h
  split at h
  · cases h
  · rename_i named
    cases opcode with
    | load slot =>
      dsimp only at h
      split at h
      · cases h
      · split at h
        · cases h
        · cases h
          exact ⟨slot, rfl, rfl, by simpa using named⟩
    | _ => cases h

/-- A name has the capital form of a symbol that is there. -/
def Clashes (table : SymbolTable) (name : String) : Prop :=
  ∃ symbol ∈ table.symbols, sameSpelling symbol.spelling name.toList = true

/-- A name for a free variable is looked up among the symbols. -/
theorem bind_of_free {table : SymbolTable} {name : String} {slot : Slot} (named : name ≠ "")
    (free : table.isBound slot = false) :
    table.bind name (.load slot) =
      if table.symbols.any fun symbol => sameSpelling symbol.spelling name.toList then
        .error (.plain .duplicateSymbol)
      else .ok ⟨table.bindings ++ [⟨name.toList, slot⟩]⟩ := by
  have characters : name.toList.isEmpty = false := by
    rw [List.isEmpty_eq_false_iff]
    exact fun none => named (String.toList_eq_nil_iff.mp none)
  simp only [bind, characters, free, Bool.false_eq_true, if_false]

/-- A name that clashes is refused. -/
theorem bind_of_clashes {table : SymbolTable} {name : String} {slot : Slot} (named : name ≠ "")
    (free : table.isBound slot = false) (clash : table.Clashes name) :
    table.bind name (.load slot) = .error (.plain .duplicateSymbol) := by
  rw [bind_of_free named free, if_pos (List.any_eq_true.mpr clash)]

/-- A name for a free variable is bound unless it clashes. -/
theorem bind_of_not_clashes {table : SymbolTable} {name : String} {slot : Slot} (named : name ≠ "")
    (free : table.isBound slot = false) (new : ¬ table.Clashes name) :
    table.bind name (.load slot) = .ok ⟨table.bindings ++ [⟨name.toList, slot⟩]⟩ := by
  rw [bind_of_free named free, if_neg (fun found => new (List.any_eq_true.mp found))]

/-- Without names a clash is one with a fixed spelling. -/
theorem clashes_empty {name : String} :
    empty.Clashes name ↔ ∃ symbol ∈ builtins, sameSpelling symbol.spelling name.toList = true :=
  Iff.rfl

/-- With one name a clash is one with that name or with a fixed spelling. -/
theorem clashes_single {binding : Binding} {name : String} :
    SymbolTable.Clashes ⟨[binding]⟩ name ↔
      sameSpelling binding.name name.toList = true ∨ empty.Clashes name := by
  simp [Clashes, symbols, empty, Binding.symbol]

/-- No symbol of a table that names lead to has an empty spelling. -/
theorem Reachable.spelling_ne_nil {table : SymbolTable} (reachable : table.Reachable) :
    ∀ symbol ∈ table.symbols, symbol.spelling ≠ [] := by
  induction reachable with
  | empty => exact spelling_ne_nil_of_builtins
  | bind _ bound ih =>
    obtain ⟨slot, _, added, named⟩ := bindings_of_bind bound
    intro symbol member
    rcases mem_symbols.mp member with ⟨binding, bindings, rfl⟩ | fixed
    · rw [added, List.mem_append, List.mem_singleton] at bindings
      rcases bindings with old | rfl
      · exact ih _ (mem_symbols.mpr (Or.inl ⟨binding, old, rfl⟩))
      · exact named
    · exact spelling_ne_nil_of_builtins symbol fixed

/-! ## The longest spelling -/

/-- Of symbols gone through the longest stands in the end. -/
theorem longest_of_foldl {found : List Symbol} {best : Option Symbol} {symbol : Symbol}
    (h : found.foldl longer best = some symbol) :
    (∀ old, best = some old → old.spelling.length ≤ symbol.spelling.length) ∧
      ∀ other ∈ found, other.spelling.length ≤ symbol.spelling.length := by
  induction found generalizing best with
  | nil =>
    refine ⟨?_, by simp⟩
    rintro old rfl
    cases h
    exact Nat.le_refl _
  | cons first found ih =>
    rw [List.foldl_cons] at h
    obtain ⟨kept, others⟩ := ih h
    have step : first.spelling.length ≤ symbol.spelling.length ∧
        ∀ old, best = some old → old.spelling.length ≤ symbol.spelling.length := by
      cases best with
      | none => exact ⟨kept first rfl, by simp⟩
      | some old =>
        by_cases less : old.spelling.length < first.spelling.length
        · have taken := kept first (if_pos less)
          refine ⟨taken, ?_⟩
          rintro _ ⟨rfl⟩
          omega
        · have taken := kept old (if_neg less)
          refine ⟨by omega, ?_⟩
          rintro _ ⟨rfl⟩
          exact taken
    refine ⟨step.2, ?_⟩
    intro other member
    rcases List.mem_cons.mp member with rfl | later
    · exact step.1
    · exact others other later

/-- Among symbols there is a longest one. -/
theorem foldl_longer_ne_none (found : List Symbol) (symbol : Symbol) :
    found.foldl longer (some symbol) ≠ none := by
  induction found generalizing symbol with
  | nil => exact Option.some_ne_none symbol
  | cons first found ih =>
    rw [List.foldl_cons, longer]
    split
    · exact ih first
    · exact ih symbol

/-- No spelling that a text starts with is longer than the one that is found. -/
theorem longest_of_lookup {table : SymbolTable} {text : List Char} {length : Nat} {token : Token}
    (h : table.lookup text = some (length, token)) :
    ∀ symbol ∈ table.symbols, startsWith symbol.spelling text = true →
      symbol.spelling.length ≤ length := by
  intro symbol member starts
  rw [lookup, Option.map_eq_some_iff] at h
  obtain ⟨chosen, best, same⟩ := h
  cases same
  exact (longest_of_foldl best).2 symbol (List.mem_filter.mpr ⟨member, starts⟩)

/-- A text starts with no spelling if none is found. -/
theorem startsWith_of_lookup_eq_none {table : SymbolTable} {text : List Char}
    (h : table.lookup text = none) :
    ∀ symbol ∈ table.symbols, startsWith symbol.spelling text = false := by
  intro symbol member
  refine Bool.eq_false_iff.mpr fun starts => ?_
  rw [lookup, Option.map_eq_none_iff] at h
  have found : symbol ∈ table.symbols.filter fun symbol => startsWith symbol.spelling text :=
    List.mem_filter.mpr ⟨member, starts⟩
  cases all : table.symbols.filter fun symbol => startsWith symbol.spelling text with
  | nil =>
    rw [all] at found
    cases found
  | cons first others =>
    rw [all] at h
    exact foldl_longer_ne_none others first h

/-- Texts that start with the same spellings lead to the same symbol. -/
theorem lookup_congr {table : SymbolTable} {text text' : List Char}
    (h : ∀ symbol ∈ table.symbols,
      startsWith symbol.spelling text = startsWith symbol.spelling text') :
    table.lookup text = table.lookup text' := by
  rw [lookup, lookup, List.filter_congr h]

end SymbolTable

/-! ## Names of a compilation -/

/-- Two names that do not bind: one of them, unless it is empty, has the capital form of a fixed
spelling, or both are there and have the same capital form. -/
def NamesClash (xName yName : String) : Prop :=
  (xName ≠ "" ∧ ∃ symbol ∈ builtins, sameSpelling symbol.spelling xName.toList = true) ∨
  (yName ≠ "" ∧ ∃ symbol ∈ builtins, sameSpelling symbol.spelling yName.toList = true) ∨
  (xName ≠ "" ∧ yName ≠ "" ∧ sameSpelling xName.toList yName.toList = true)

namespace SymbolTable

/-- Names that are there are bound one after the other. -/
theorem ofNames_eq (xName yName : String) :
    ofNames xName yName =
      match if xName = "" then .ok empty else empty.bind xName (.load .x) with
      | .error fault => .error fault
      | .ok table => if yName = "" then .ok table else table.bind yName (.load .y) := by
  simp only [ofNames, String.isEmpty_iff]
  by_cases noX : xName = ""
  · rw [if_pos noX, if_pos noX]
    rfl
  · rw [if_neg noX, if_neg noX]
    cases empty.bind xName (.load .x) <;> rfl

/-- The table for the names of a compilation is reached by binding them. -/
theorem reachable_of_ofNames {xName yName : String} {table : SymbolTable}
    (h : ofNames xName yName = .ok table) : table.Reachable := by
  rw [ofNames_eq] at h
  split at h
  · cases h
  · rename_i first bound
    have reachable : first.Reachable := by
      split at bound
      · cases bound
        exact .empty
      · exact .bind .empty bound
    split at h
    · cases h
      exact reachable
    · exact .bind reachable h

/-- The table for the names of a compilation binds each name that is there. -/
theorem mem_bindings_of_ofNames {xName yName : String} {table : SymbolTable}
    (h : ofNames xName yName = .ok table) (binding : Binding) :
    binding ∈ table.bindings ↔
      xName ≠ "" ∧ binding = ⟨xName.toList, .x⟩ ∨ yName ≠ "" ∧ binding = ⟨yName.toList, .y⟩ := by
  rw [ofNames_eq] at h
  split at h
  · cases h
  · rename_i first bound
    have names : binding ∈ first.bindings ↔ xName ≠ "" ∧ binding = ⟨xName.toList, .x⟩ := by
      split at bound
      · rename_i noX
        cases bound
        simp [noX, empty]
      · rename_i named
        obtain ⟨slot, ⟨⟩, added, _⟩ := bindings_of_bind bound
        rw [added]
        simp [named, empty]
    split at h
    · rename_i noY
      cases h
      simp [noY, names]
    · rename_i named
      obtain ⟨slot, ⟨⟩, added, _⟩ := bindings_of_bind h
      rw [added]
      simp [named, names]

/-- The names that the table for a compilation binds are those of the compilation. -/
theorem name_of_ofNames {xName yName : String} {table : SymbolTable}
    (h : ofNames xName yName = .ok table) :
    ∀ binding ∈ table.bindings, binding.name = xName.toList ∨ binding.name = yName.toList := by
  intro binding member
  rcases (mem_bindings_of_ofNames h binding).mp member with ⟨_, rfl⟩ | ⟨_, rfl⟩
  · exact Or.inl rfl
  · exact Or.inr rfl

/-- The names of a compilation are refused exactly when they clash, and always with one fault. -/
theorem ofNames_eq_error_iff {xName yName : String} {fault : Fault} :
    ofNames xName yName = .error fault ↔
      fault = .plain .duplicateSymbol ∧ NamesClash xName yName := by
  have refused : (.error (.plain .duplicateSymbol) : Except Fault SymbolTable) = .error fault ↔
      fault = .plain .duplicateSymbol := by
    rw [Except.error.injEq, eq_comm]
  have last (table : SymbolTable) (named : yName ≠ "") (free : table.isBound .y = false) :
      table.bind yName (.load .y) = .error fault ↔
        fault = .plain .duplicateSymbol ∧ table.Clashes yName := by
    by_cases clash : table.Clashes yName
    · simp [bind_of_clashes named free clash, refused, clash]
    · simp [bind_of_not_clashes named free clash, clash]
  rw [ofNames_eq, NamesClash, ← clashes_empty, ← clashes_empty]
  by_cases noX : xName = ""
  · by_cases noY : yName = ""
    · simp [noX, noY]
    · simp [noX, noY, last empty noY rfl]
  · by_cases clashX : empty.Clashes xName
    · simp [noX, bind_of_clashes noX rfl clashX, refused, clashX]
    · by_cases noY : yName = ""
      · simp [noX, noY, bind_of_not_clashes noX rfl clashX, clashX]
      · have bound : empty.bind xName (.load .x) = .ok ⟨[⟨xName.toList, .x⟩]⟩ :=
          bind_of_not_clashes noX rfl clashX
        have single := last ⟨[⟨xName.toList, .x⟩]⟩ noY rfl
        simp [noX, noY, bound, single, clashes_single, clashX, or_comm]

end SymbolTable

end TapeCalc
