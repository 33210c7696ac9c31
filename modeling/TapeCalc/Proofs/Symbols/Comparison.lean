import TapeCalc.Proofs.Symbols.LongestMatch
import TapeCalc.Proofs.Text.SameLetters

/-!
# Two comparisons of spellings

A spelling is compared with a text character by character, and names are compared with spellings by
their whole capital forms.  What agrees character by character agrees as a whole.  The other way
round this fails where a letter has several capitals, because the letters of one capital form can be
told apart in more than one way.

If every letter has a single capital, both comparisons agree.  Then a name is refused as a
duplicate exactly when looking it up already finds a symbol that is as long as the name.

Main definitions:

- {lit}`HasSingleCapitals`: texts whose letters have a single capital each.

Main results:

- Theorem {lit}`HasSingleCapitals.sameSpelling_iff`: spellings with one capital form as a whole.
- Theorem {lit}`SymbolTable.clashes_iff_lookup`: names that clash with a symbol.
- Theorem {lit}`comparisons_agree`: both comparisons, and the names that are refused.
-/

namespace TapeCalc

/-! ## Letters with a single capital -/

/-- Every character of a text has a single capital. -/
def HasSingleCapitals (text : List Char) : Prop := ∀ c ∈ text, (upper c).length = 1

instance (text : List Char) : Decidable (HasSingleCapitals text) :=
  List.decidableBAll (fun c => (upper c).length = 1) text

/-- A text without a capital form has no characters, if each of them has a single capital. -/
theorem HasSingleCapitals.eq_nil {text : List Char} (single : HasSingleCapitals text)
    (nothing : text.flatMap upper = []) : text = [] := by
  cases text with
  | nil => rfl
  | cons c text =>
    have one := single c List.mem_cons_self
    rw [List.flatMap_cons, List.append_eq_nil_iff] at nothing
    rw [nothing.1] at one
    cases one

/-- Single capitals are the same one by one if they are the same as a whole. -/
theorem HasSingleCapitals.map_upper_eq {first second : List Char}
    (single : HasSingleCapitals first) (single' : HasSingleCapitals second)
    (whole : first.flatMap upper = second.flatMap upper) : first.map upper = second.map upper := by
  induction first generalizing second with
  | nil => rw [single'.eq_nil whole.symm]
  | cons c first ih =>
    cases second with
    | nil => rw [single.eq_nil whole]
    | cons d second =>
      have length : (upper c).length = (upper d).length :=
        (single c List.mem_cons_self).trans (single' d List.mem_cons_self).symm
      rw [List.flatMap_cons, List.flatMap_cons] at whole
      obtain ⟨letter, rest⟩ := List.append_inj whole length
      rw [List.map_cons, List.map_cons, letter,
        ih (fun e member => single e (List.mem_cons_of_mem _ member))
          (fun e member => single' e (List.mem_cons_of_mem _ member)) rest]

/-- Texts with the same letters have one capital form as a whole. -/
theorem SameLetters.sameSpelling {spelling text : List Char} (same : SameLetters spelling text) :
    sameSpelling spelling text = true := by
  simp [TapeCalc.sameSpelling, List.flatMap_def, sameLetters_iff.mp same]

/-- Where letters have a single capital, a spelling has the capital form of a text if and only if
it is as long as the text and found at its start. -/
theorem HasSingleCapitals.sameSpelling_iff {spelling text : List Char}
    (single : HasSingleCapitals spelling) (single' : HasSingleCapitals text) :
    sameSpelling spelling text = true ↔
      spelling.length = text.length ∧ startsWith spelling text = true := by
  constructor
  · intro whole
    have letters := single.map_upper_eq single' (eq_of_beq whole)
    have same : SameLetters spelling text := sameLetters_iff.mpr letters.symm
    exact ⟨same.length_eq.symm, (startsWith_iff_sameLetters same.length_eq.symm).mpr same⟩
  · rintro ⟨length, starts⟩
    exact ((startsWith_iff_sameLetters length).mp starts).sameSpelling

/-- A letter with two capitals has the capital form of two letters, and it is not found in them. -/
example : sameSpelling ['ß'] ['s', 's'] = true ∧ startsWith ['ß'] ['s', 's'] = false := by
  decide +kernel

/-! ## Names that are refused -/

/-- The fixed spellings have single capitals. -/
theorem hasSingleCapitals_of_builtins : ∀ symbol ∈ builtins, HasSingleCapitals symbol.spelling := by
  decide +kernel

namespace SymbolTable

variable {table : SymbolTable} {name : String}

/-- Every name of the table has single capitals. -/
def NamesHaveSingleCapitals (table : SymbolTable) : Prop :=
  ∀ binding ∈ table.bindings, HasSingleCapitals binding.name

/-- If the names of a table have single capitals, so has every spelling. -/
theorem NamesHaveSingleCapitals.spelling (names : table.NamesHaveSingleCapitals) {symbol : Symbol}
    (member : symbol ∈ table.symbols) : HasSingleCapitals symbol.spelling := by
  rcases mem_symbols.mp member with ⟨binding, bound, rfl⟩ | fixed
  · exact names binding bound
  · exact hasSingleCapitals_of_builtins symbol fixed

/-- Looking up finds as many characters as the text has if and only if some spelling is as long as
the text and found at its start. -/
theorem exists_lookup_iff {text : List Char} :
    (∃ token, table.lookup text = some (text.length, token)) ↔
      ∃ symbol ∈ table.symbols, symbol.spelling.length = text.length ∧
        startsWith symbol.spelling text = true := by
  constructor
  · rintro ⟨token, found⟩
    obtain ⟨symbol, member, starts, length, _⟩ := exists_of_lookup found
    exact ⟨symbol, member, length, starts⟩
  · rintro ⟨symbol, member, length, starts⟩
    cases found : table.lookup text with
    | none =>
      rw [startsWith_of_lookup_eq_none found symbol member] at starts
      cases starts
    | some entry =>
      rcases entry with ⟨count, token⟩
      have short := length_le_of_lookup found
      have long := longest_of_lookup found symbol member starts
      rw [show count = text.length by omega]
      exact ⟨token, rfl⟩

/-- Where letters have a single capital, a name clashes with a symbol if and only if looking it up
finds as many characters as it has. -/
theorem clashes_iff_lookup (names : table.NamesHaveSingleCapitals)
    (single : HasSingleCapitals name.toList) :
    table.Clashes name ↔ ∃ token, table.lookup name.toList = some (name.toList.length, token) := by
  have agree (symbol : Symbol) (member : symbol ∈ table.symbols) :=
    (names.spelling member).sameSpelling_iff single
  rw [exists_lookup_iff, Clashes]
  constructor
  · rintro ⟨symbol, member, same⟩
    exact ⟨symbol, member, (agree symbol member).mp same⟩
  · rintro ⟨symbol, member, found⟩
    exact ⟨symbol, member, (agree symbol member).mpr found⟩

/-- A name for a free variable is refused as a duplicate if and only if it clashes. -/
theorem bind_eq_duplicate_iff {slot : Slot} (named : name ≠ "")
    (free : table.isBound slot = false) :
    table.bind name (.load slot) = .error (.plain .duplicateSymbol) ↔ table.Clashes name := by
  by_cases clash : table.Clashes name
  · simp [bind_of_clashes named free clash, clash]
  · simp [bind_of_not_clashes named free clash, clash]

end SymbolTable

/-- The two comparisons of spellings agree where they have to.  A spelling that is found in a text
of its own length has the capital form of the text.  If all letters have a single capital, a
spelling with the capital form of a text is as long as the text and found in it.  So in every table,
if the letters of its names and of a new name have a single capital, the new name is refused for a
free variable as a duplicate if and only if looking it up finds a symbol of its full length. -/
theorem comparisons_agree :
    (∀ spelling text : List Char, startsWith spelling text = true →
      spelling.length = text.length → sameSpelling spelling text = true) ∧
    (∀ spelling text : List Char, HasSingleCapitals spelling → HasSingleCapitals text →
      sameSpelling spelling text = true →
        spelling.length = text.length ∧ startsWith spelling text = true) ∧
    ∀ (table : SymbolTable) (name : String) (slot : Slot), name ≠ "" →
      table.isBound slot = false → HasSingleCapitals name.toList →
      (∀ binding ∈ table.bindings, HasSingleCapitals binding.name) →
        (table.bind name (.load slot) = .error (.plain .duplicateSymbol) ↔
          ∃ token, table.lookup name.toList = some (name.toList.length, token)) := by
  refine ⟨?_, ?_, ?_⟩
  · intro spelling text starts length
    exact ((startsWith_iff_sameLetters length).mp starts).sameSpelling
  · intro spelling text single single' same
    exact (single.sameSpelling_iff single').mp same
  · intro table name slot named free single names
    rw [SymbolTable.bind_eq_duplicate_iff named free]
    exact SymbolTable.clashes_iff_lookup names single

/-- Beside the name {lit}`rate` another letter case of it is a duplicate, which looking it up shows
before. -/
theorem rate_is_duplicate :
    let table : SymbolTable := ⟨[⟨"rate".toList, .x⟩]⟩
    table.Reachable ∧ table.isBound .y = false ∧ HasSingleCapitals "RATe".toList ∧
      (∀ binding ∈ table.bindings, HasSingleCapitals binding.name) ∧
      table.lookup "RATe".toList = some (4, .load .x) ∧
      table.bind "RATe" (.load .y) = .error (.plain .duplicateSymbol) := by
  intro table
  have bound : SymbolTable.empty.bind "rate" (.load .x) = .ok table := rfl
  have single : HasSingleCapitals "RATe".toList := by decide +kernel
  have names : ∀ binding ∈ table.bindings, HasSingleCapitals binding.name := by decide +kernel
  have found : table.lookup "RATe".toList = some (4, .load .x) := by decide +kernel
  have refused := comparisons_agree.2.2 table "RATe" .y (by decide) rfl single names
  exact ⟨.bind .empty bound, rfl, single, names, found, refused.mpr ⟨.load .x, found⟩⟩

end TapeCalc
