import TapeCalc.Proofs.Symbols

/-!
# The longest spelling

Names are requested one after the other, and a request that is refused changes nothing.  In
every table that requests lead to no two symbols have the same capital form.  Two spellings
of one length that a text starts with have the same capital form, so they belong to one
symbol, and the longest spelling at a place in a text is the spelling of one symbol only.

That is why it makes no difference in which order symbols are compared, and which of two
equally long ones would win.

Main definitions:

- {lit}`SymbolTable.requested`: the table that requests lead to.
- {lit}`IsLongest`: a longest spelling at the start of a text.
- {lit}`mergedLookup`: names and fixed spellings looked up apart from each other.

Main results:

- Theorem {lit}`SymbolTable.distinct_of_reachable`: no two symbols have one capital form.
- Theorem {lit}`SymbolTable.lookup_eq_some_iff`: what is found is a longest spelling.
- Theorem {lit}`longest_spelling_well_defined`: the longest spelling, for every table that
  requests lead to.
-/

namespace TapeCalc

/-! ## Requests -/

/-- What a table may be asked to do: to bind a name to the first variable without one, or to the
variable that an instruction reads. -/
inductive NameRequest where
  | add (name : String)
  | bind (name : String) (opcode : Opcode)

namespace SymbolTable

/-- The table after a request, which is the same table if the request is refused. -/
def afterRequest (table : SymbolTable) : NameRequest → SymbolTable
  | .add name =>
    match table.add name with
    | .ok (_, after) => after
    | .error _ => table
  | .bind name opcode =>
    match table.bind name opcode with
    | .ok after => after
    | .error _ => table

/-- The table that requests lead to, one after the other. -/
def requested (requests : List NameRequest) : SymbolTable := requests.foldl afterRequest empty

/-- Adding a name binds it to a variable. -/
theorem exists_bind_of_add {table after : SymbolTable} {name : String} {slot : Slot}
    (h : table.add name = .ok (slot, after)) : table.bind name (.load slot) = .ok after := by
  rw [add] at h
  split at h
  · cases h
  · rename_i free _
    cases bound : table.bind name (.load free) with
    | error fault =>
      rw [bound] at h
      cases h
    | ok reached =>
      rw [bound] at h
      cases h
      exact bound

/-- A request leads from a table that binding names leads to to another one. -/
theorem Reachable.afterRequest {table : SymbolTable} (h : table.Reachable)
    (request : NameRequest) : (table.afterRequest request).Reachable := by
  cases request with
  | add name =>
    rw [SymbolTable.afterRequest]
    split
    · exact .bind h (exists_bind_of_add ‹_›)
    · exact h
  | bind name opcode =>
    rw [SymbolTable.afterRequest]
    split
    · exact .bind h ‹_›
    · exact h

/-- Requests lead to tables that binding names leads to. -/
theorem reachable_requested (requests : List NameRequest) : (requested requests).Reachable := by
  have all : ∀ table : SymbolTable, table.Reachable →
      (requests.foldl SymbolTable.afterRequest table).Reachable := by
    induction requests with
    | nil => exact fun _ reachable => reachable
    | cons request requests ih =>
      exact fun table reachable => ih _ (reachable.afterRequest request)
  exact all empty .empty

/-! ## Capital forms of symbols -/

/-- Two symbols with different capital forms. -/
def DiffersFrom (first second : Symbol) : Prop :=
  sameSpelling first.spelling second.spelling = false

/-- No two symbols of the table have the same capital form. -/
def Distinct (table : SymbolTable) : Prop := table.symbols.Pairwise DiffersFrom

/-- The fixed spellings have different capital forms. -/
theorem pairwise_builtins : builtins.Pairwise DiffersFrom := by
  unfold DiffersFrom
  decide +kernel

/-- A name is bound only if no symbol has its capital form. -/
theorem not_clashes_of_bind {table after : SymbolTable} {name : String} {opcode : Opcode}
    (h : table.bind name opcode = .ok after) : ¬ table.Clashes name := by
  intro clash
  unfold bind at h
  split at h
  · cases h
  · split at h
    · split at h
      · cases h
      · split at h
        · cases h
        · exact absurd (List.any_eq_true.mpr clash) ‹_›
    · cases h

/-- Binding a name keeps the capital forms of symbols different. -/
theorem Distinct.bind {table after : SymbolTable} {name : String} {opcode : Opcode}
    (h : table.Distinct) (bound : table.bind name opcode = .ok after) : after.Distinct := by
  obtain ⟨slot, _, added, _⟩ := bindings_of_bind bound
  have new : ∀ symbol ∈ table.symbols, sameSpelling symbol.spelling name.toList = false :=
    fun symbol member => Bool.eq_false_iff.mpr fun same =>
      not_clashes_of_bind bound ⟨symbol, member, same⟩
  rw [Distinct, symbols] at h ⊢
  rw [added, List.map_append, List.append_assoc]
  obtain ⟨names, fixed, apart⟩ := List.pairwise_append.mp h
  refine List.pairwise_append.mpr ⟨names, List.pairwise_cons.mpr ⟨?_, fixed⟩, ?_⟩
  · intro symbol member
    have other := new symbol (List.mem_append_right _ member)
    rw [sameSpelling, Bool.beq_comm] at other
    exact other
  · intro old oldMember symbol member
    rcases List.mem_cons.mp member with rfl | later
    · exact new old (List.mem_append_left _ oldMember)
    · exact apart old oldMember symbol later

/-- In no table that binding names leads to two symbols have the same capital form. -/
theorem distinct_of_reachable {table : SymbolTable} (h : table.Reachable) : table.Distinct := by
  induction h with
  | empty => exact pairwise_builtins
  | bind _ bound ih => exact ih.bind bound

end SymbolTable

/-- Spellings of one length that a text starts with have the same capital form. -/
theorem sameSpelling_of_startsWith {first second text : List Char}
    (startsFirst : startsWith first text = true) (startsSecond : startsWith second text = true)
    (length : first.length = second.length) : sameSpelling first second = true := by
  have forms : first.map upper = second.map upper := by
    induction first generalizing second text with
    | nil => rw [List.length_eq_zero_iff.mp length.symm]
    | cons a first ih =>
      cases second with
      | nil => cases length
      | cons b second =>
        cases text with
        | nil => cases startsFirst
        | cons c text =>
          simp only [startsWith, sameLetter, Bool.and_eq_true, beq_iff_eq]
            at startsFirst startsSecond
          have rest := ih startsFirst.2 startsSecond.2 (Nat.succ.inj length)
          rw [List.map_cons, List.map_cons, rest, ← startsFirst.1, startsSecond.1]
  rw [sameSpelling, List.flatMap_def, List.flatMap_def, forms]
  exact beq_self_eq_true _

/-- Of symbols with different capital forms no two of one length are found at one place. -/
theorem not_startsWith_of_pairwise {symbols : List Symbol}
    (distinct : symbols.Pairwise SymbolTable.DiffersFrom) {i j : Nat} (less : i < j)
    (inside : j < symbols.length) {text : List Char}
    (startsFirst : startsWith symbols[i].spelling text = true)
    (startsSecond : startsWith symbols[j].spelling text = true) :
    symbols[i].spelling.length ≠ symbols[j].spelling.length := by
  intro length
  have same := sameSpelling_of_startsWith startsFirst startsSecond length
  have differ : sameSpelling symbols[i].spelling symbols[j].spelling = false :=
    List.pairwise_iff_getElem.mp distinct i j (Nat.lt_trans less inside) inside less
  rw [same] at differ
  cases differ

/-- Symbols of one length that are found at one place stand at one index. -/
theorem index_eq_of_startsWith {symbols : List Symbol}
    (distinct : symbols.Pairwise SymbolTable.DiffersFrom) {i j : Nat} {first second : Symbol}
    (atFirst : symbols[i]? = some first) (atSecond : symbols[j]? = some second)
    {text : List Char} (startsFirst : startsWith first.spelling text = true)
    (startsSecond : startsWith second.spelling text = true)
    (length : first.spelling.length = second.spelling.length) : i = j := by
  obtain ⟨insideFirst, rfl⟩ := List.getElem?_eq_some_iff.mp atFirst
  obtain ⟨insideSecond, rfl⟩ := List.getElem?_eq_some_iff.mp atSecond
  rcases Nat.lt_trichotomy i j with less | equal | greater
  · have differ := not_startsWith_of_pairwise distinct less insideSecond startsFirst startsSecond
    exact absurd length differ
  · exact equal
  · have differ := not_startsWith_of_pairwise distinct greater insideFirst startsSecond startsFirst
    exact absurd length.symm differ

/-! ## Longest spellings -/

/-- A symbol that a text starts with, where no longer spelling is found. -/
structure IsLongest (symbols : List Symbol) (text : List Char) (symbol : Symbol) : Prop where
  member : symbol ∈ symbols
  starts : startsWith symbol.spelling text = true
  longest : ∀ other ∈ symbols, startsWith other.spelling text = true →
    other.spelling.length ≤ symbol.spelling.length

/-- A choice of a longest spelling: nothing if no spelling is found, and otherwise a longest one. -/
inductive Chooses (symbols : List Symbol) (text : List Char) : Option Symbol → Prop where
  | nothing (missing : ∀ symbol ∈ symbols, startsWith symbol.spelling text = false) :
      Chooses symbols text none
  | symbol {symbol : Symbol} (longest : IsLongest symbols text symbol) :
      Chooses symbols text (some symbol)

/-- Whatever two symbols are compared, one of them is kept, and the other is no longer. -/
structure KeepsLonger (keep : Symbol → Symbol → Symbol) : Prop where
  one (first second : Symbol) : keep first second = first ∨ keep first second = second
  first_le (first second : Symbol) : first.spelling.length ≤ (keep first second).spelling.length
  second_le (first second : Symbol) : second.spelling.length ≤ (keep first second).spelling.length

/-- The symbol that is kept when symbols are compared one after the other. -/
def keptOf (keep : Symbol → Symbol → Symbol) : List Symbol → Option Symbol
  | [] => none
  | first :: others => some (others.foldl keep first)

namespace KeepsLonger

variable {keep : Symbol → Symbol → Symbol}

/-- What is kept of symbols is one of them, and none of them is longer. -/
theorem foldl (h : KeepsLonger keep) (first : Symbol) (others : List Symbol) :
    others.foldl keep first ∈ first :: others ∧
      ∀ symbol ∈ first :: others,
        symbol.spelling.length ≤ (others.foldl keep first).spelling.length := by
  induction others generalizing first with
  | nil => simp
  | cons second others ih =>
    obtain ⟨member, longest⟩ := ih (keep first second)
    rw [List.foldl_cons]
    have kept := longest _ List.mem_cons_self
    refine ⟨?_, ?_⟩
    · rcases List.mem_cons.mp member with same | later
      · rw [same]
        rcases h.one first second with left | right
        · simp [left]
        · simp [right]
      · exact List.mem_cons_of_mem _ (List.mem_cons_of_mem _ later)
    · intro symbol inside
      rcases List.mem_cons.mp inside with rfl | further
      · exact Nat.le_trans (h.first_le symbol second) kept
      · rcases List.mem_cons.mp further with rfl | later
        · exact Nat.le_trans (h.second_le first symbol) kept
        · exact longest symbol (List.mem_cons_of_mem _ later)

/-- What is kept of the symbols that a text starts with is a longest one. -/
theorem chooses (h : KeepsLonger keep) (symbols : List Symbol) (text : List Char) :
    Chooses symbols text
      (keptOf keep (symbols.filter fun symbol => startsWith symbol.spelling text)) := by
  cases found : symbols.filter fun symbol => startsWith symbol.spelling text with
  | nil =>
    refine .nothing fun symbol member => ?_
    simpa using List.filter_eq_nil_iff.mp found _ member
  | cons first others =>
    obtain ⟨member, longest⟩ := h.foldl first others
    rw [← found] at member longest
    obtain ⟨inside, starts⟩ := List.mem_filter.mp member
    exact .symbol ⟨inside, starts, fun other otherInside otherStarts =>
      longest other (List.mem_filter.mpr ⟨otherInside, otherStarts⟩)⟩

end KeepsLonger

/-- Where the longer spellings stand in front, the first that is found is a longest one. -/
theorem chooses_find? {symbols : List Symbol}
    (sorted : symbols.Pairwise fun first second =>
      second.spelling.length ≤ first.spelling.length) (text : List Char) :
    Chooses symbols text (symbols.find? fun symbol => startsWith symbol.spelling text) := by
  induction symbols with
  | nil => exact .nothing (by simp)
  | cons first others ih =>
    obtain ⟨front, rest⟩ := List.pairwise_cons.mp sorted
    rw [List.find?_cons]
    cases starts : startsWith first.spelling text with
    | true =>
      refine .symbol ⟨List.mem_cons_self, starts, ?_⟩
      intro other member _
      rcases List.mem_cons.mp member with rfl | later
      · exact Nat.le_refl _
      · exact front other later
    | false =>
      dsimp only
      generalize others.find? (fun symbol => startsWith symbol.spelling text) = choice at ih
      cases ih rest with
      | nothing missing => exact .nothing (List.forall_mem_cons.mpr ⟨starts, missing⟩)
      | symbol longest =>
        refine .symbol ⟨List.mem_cons_of_mem _ longest.member, longest.starts, ?_⟩
        intro other member otherStarts
        rcases List.mem_cons.mp member with rfl | later
        · rw [starts] at otherStarts
          cases otherStarts
        · exact longest.longest other later otherStarts

/-- Of two choices the second one if it is longer, and the first one otherwise. -/
def preferred : Option Symbol → Option Symbol → Option Symbol
  | some first, some second =>
    if first.spelling.length < second.spelling.length then some second else some first
  | some first, none => some first
  | none, second? => second?

/-- A symbol of one of two lists is a longest one of both if no longer one is found in either. -/
theorem IsLongest.of_append {symbols others : List Symbol} {text : List Char} {symbol : Symbol}
    (member : symbol ∈ symbols ++ others) (starts : startsWith symbol.spelling text = true)
    (left : ∀ other ∈ symbols, startsWith other.spelling text = true →
      other.spelling.length ≤ symbol.spelling.length)
    (right : ∀ other ∈ others, startsWith other.spelling text = true →
      other.spelling.length ≤ symbol.spelling.length) :
    IsLongest (symbols ++ others) text symbol := by
  refine ⟨member, starts, fun other inside => ?_⟩
  rcases List.mem_append.mp inside with first | second
  · exact left other first
  · exact right other second

namespace Chooses

variable {symbols others : List Symbol} {text : List Char}

/-- Where no spelling is found there is none to compare with. -/
theorem le_of_missing (missing : ∀ symbol ∈ symbols, startsWith symbol.spelling text = false)
    (bound : Nat) : ∀ symbol ∈ symbols, startsWith symbol.spelling text = true →
      symbol.spelling.length ≤ bound := by
  intro symbol member starts
  rw [missing symbol member] at starts
  cases starts

/-- Choices among two lists of symbols make one among all of them. -/
theorem preferred {choice choice' : Option Symbol} (h : Chooses symbols text choice)
    (h' : Chooses others text choice') :
    Chooses (symbols ++ others) text (preferred choice choice') := by
  cases h with
  | nothing missing =>
    cases h' with
    | nothing missing' => exact .nothing (List.forall_mem_append.mpr ⟨missing, missing'⟩)
    | symbol second =>
      exact .symbol (.of_append (List.mem_append_right _ second.member) second.starts
        (le_of_missing missing _) second.longest)
  | @symbol first longest =>
    have inside := List.mem_append_left others longest.member
    cases h' with
    | nothing missing =>
      exact .symbol (.of_append inside longest.starts longest.longest (le_of_missing missing _))
    | @symbol second longest' =>
      rw [TapeCalc.preferred]
      by_cases less : first.spelling.length < second.spelling.length
      · rw [if_pos less]
        refine .symbol (.of_append (List.mem_append_right _ longest'.member) longest'.starts ?_
          longest'.longest)
        exact fun other member starts =>
          Nat.le_trans (longest.longest other member starts) (Nat.le_of_lt less)
      · rw [if_neg less]
        refine .symbol (.of_append inside longest.starts longest.longest ?_)
        exact fun other member starts =>
          Nat.le_trans (longest'.longest other member starts) (Nat.le_of_not_lt less)

/-- A choice depends on which symbols there are, and not on their order. -/
theorem perm {choice : Option Symbol} (h : Chooses symbols text choice)
    (same : symbols.Perm others) : Chooses others text choice := by
  cases h with
  | nothing missing =>
    exact .nothing fun symbol member => missing symbol (same.mem_iff.mpr member)
  | symbol longest =>
    exact .symbol ⟨same.mem_iff.mp longest.member, longest.starts,
      fun other member => longest.longest other (same.mem_iff.mpr member)⟩

/-- Among symbols with different capital forms there is one choice only. -/
theorem unique (distinct : symbols.Pairwise SymbolTable.DiffersFrom)
    {choice choice' : Option Symbol}
    (h : Chooses symbols text choice) (h' : Chooses symbols text choice') : choice = choice' := by
  cases h with
  | nothing missing =>
    cases h' with
    | nothing _ => rfl
    | symbol longest =>
      have starts := longest.starts
      rw [missing _ longest.member] at starts
      cases starts
  | symbol longest =>
    cases h' with
    | nothing missing =>
      have starts := longest.starts
      rw [missing _ longest.member] at starts
      cases starts
    | symbol longest' =>
      obtain ⟨i, atFirst⟩ := List.mem_iff_getElem?.mp longest.member
      obtain ⟨j, atSecond⟩ := List.mem_iff_getElem?.mp longest'.member
      have length := Nat.le_antisymm (longest'.longest _ longest.member longest.starts)
        (longest.longest _ longest'.member longest'.starts)
      obtain rfl := index_eq_of_startsWith distinct atFirst atSecond longest.starts
        longest'.starts length
      exact atFirst.symm.trans atSecond

end Chooses

/-! ## Looking up -/

/-- What is said of a symbol that is found: its number of characters and its token. -/
def Symbol.answer (symbol : Symbol) : Nat × Token := (symbol.spelling.length, symbol.token)

/-- Names and fixed spellings looked up apart from each other.  Of the names one is kept by
comparing them all, of the fixed spellings the first that is found counts, and a fixed spelling
counts more than a name only if it is longer. -/
def mergedLookup (keep : Symbol → Symbol → Symbol) (names fixed : List Symbol)
    (text : List Char) : Option (Nat × Token) :=
  (preferred (keptOf keep (names.filter fun symbol => startsWith symbol.spelling text))
    (fixed.find? fun symbol => startsWith symbol.spelling text)).map Symbol.answer

namespace SymbolTable

/-- Of two symbols the longer one, and the first when both are equally long. -/
def longerOf (first second : Symbol) : Symbol :=
  if first.spelling.length < second.spelling.length then second else first

/-- The longer of two symbols is one of them, and the other is no longer. -/
theorem keepsLonger_longerOf : KeepsLonger longerOf := by
  refine ⟨?_, ?_, ?_⟩ <;> intro first second <;> rw [longerOf] <;> split
  · exact Or.inr rfl
  · exact Or.inl rfl
  · exact Nat.le_of_lt ‹_›
  · exact Nat.le_refl _
  · exact Nat.le_refl _
  · exact Nat.le_of_not_lt ‹_›

/-- Comparing symbols one after the other keeps the longer one each time. -/
theorem foldl_longer_eq (found : List Symbol) :
    found.foldl longer none = keptOf longerOf found := by
  have kept (first : Symbol) (others : List Symbol) :
      others.foldl longer (some first) = some (others.foldl longerOf first) := by
    induction others generalizing first with
    | nil => rfl
    | cons second others ih =>
      rw [List.foldl_cons, List.foldl_cons, ← ih, longer, longerOf]
      split <;> rfl
  cases found with
  | nil => rfl
  | cons first others => exact kept first others

/-- Looking up chooses a longest spelling. -/
theorem exists_chooses_lookup (table : SymbolTable) (text : List Char) :
    ∃ choice, Chooses table.symbols text choice ∧ table.lookup text = choice.map Symbol.answer :=
  ⟨_, keepsLonger_longerOf.chooses table.symbols text, by rw [lookup, foldl_longer_eq]; rfl⟩

variable {table : SymbolTable} {text : List Char}

/-- Whatever choice of a longest spelling is made, it is what looking up finds. -/
theorem lookup_eq_of_chooses (distinct : table.Distinct) {choice : Option Symbol}
    (chooses : Chooses table.symbols text choice) :
    table.lookup text = choice.map Symbol.answer := by
  obtain ⟨choice', chooses', found⟩ := exists_chooses_lookup table text
  rw [found, chooses'.unique distinct chooses]

/-- What is found is a longest spelling, and every longest spelling is what is found. -/
theorem lookup_eq_some_iff (distinct : table.Distinct) {length : Nat} {token : Token} :
    table.lookup text = some (length, token) ↔
      ∃ symbol, IsLongest table.symbols text symbol ∧ symbol.spelling.length = length ∧
        symbol.token = token := by
  constructor
  · intro found
    obtain ⟨choice, chooses, same⟩ := exists_chooses_lookup table text
    rw [found] at same
    cases chooses with
    | nothing _ => cases same
    | symbol longest =>
      cases same
      exact ⟨_, longest, rfl, rfl⟩
  · rintro ⟨symbol, longest, rfl, rfl⟩
    exact lookup_eq_of_chooses distinct (.symbol longest)

/-- Nothing is found if and only if a text starts with no spelling. -/
theorem lookup_eq_none_iff :
    table.lookup text = none ↔
      ∀ symbol ∈ table.symbols, startsWith symbol.spelling text = false := by
  refine ⟨startsWith_of_lookup_eq_none, fun missing => ?_⟩
  obtain ⟨choice, chooses, same⟩ := exists_chooses_lookup table text
  cases chooses with
  | nothing _ => exact same
  | symbol longest =>
    have starts := longest.starts
    rw [missing _ longest.member] at starts
    cases starts

/-- Looking up names and fixed spellings apart from each other finds the same, in whatever order
they stand as long as the longer ones of the fixed spellings stand in front. -/
theorem mergedLookup_eq (distinct : table.Distinct) {keep : Symbol → Symbol → Symbol}
    (keeps : KeepsLonger keep) {names fixed : List Symbol}
    (allNames : names.Perm (table.bindings.map Binding.symbol)) (allFixed : fixed.Perm builtins)
    (sorted : fixed.Pairwise fun first second =>
      second.spelling.length ≤ first.spelling.length) (text : List Char) :
    mergedLookup keep names fixed text = table.lookup text := by
  have chooses := (keeps.chooses names text).preferred (chooses_find? sorted text)
  exact (lookup_eq_of_chooses distinct (chooses.perm (allNames.append allFixed))).symm

end SymbolTable

/-- In every table that requests lead to, refused ones among them, the longest spelling at a place
in a source is well defined.  A length and a token are found if and only if some symbol of this
length has this token, is found at the place, and no longer one is; and nothing is found if and
only if no symbol is.  Symbols of one length that are found at one place stand at one index of the
table.  The order in which names and fixed spellings stand makes no difference, and neither does
which of two equally long symbols is kept. -/
theorem longest_spelling_well_defined (requests : List NameRequest) (source : List Char)
    (position : Nat) :
    let table := SymbolTable.requested requests
    let text := source.drop position
    (∀ length token, table.lookup text = some (length, token) ↔
      ∃ symbol, IsLongest table.symbols text symbol ∧ symbol.spelling.length = length ∧
        symbol.token = token) ∧
    (table.lookup text = none ↔
      ∀ symbol ∈ table.symbols, startsWith symbol.spelling text = false) ∧
    (∀ (i j : Nat) (first second : Symbol), table.symbols[i]? = some first →
      table.symbols[j]? = some second → startsWith first.spelling text = true →
      startsWith second.spelling text = true →
      first.spelling.length = second.spelling.length → i = j) ∧
    ∀ keep names fixed, KeepsLonger keep → names.Perm (table.bindings.map Binding.symbol) →
      fixed.Perm builtins →
      (fixed.Pairwise fun first second => second.spelling.length ≤ first.spelling.length) →
      mergedLookup keep names fixed text = table.lookup text := by
  intro table text
  have distinct : table.Distinct :=
    SymbolTable.distinct_of_reachable (SymbolTable.reachable_requested requests)
  refine ⟨fun length token => SymbolTable.lookup_eq_some_iff distinct,
    SymbolTable.lookup_eq_none_iff, ?_, ?_⟩
  · intro i j first second atFirst atSecond startsFirst startsSecond length
    exact index_eq_of_startsWith distinct atFirst atSecond startsFirst startsSecond length
  · intro keep names fixed keeps allNames allFixed sorted
    exact SymbolTable.mergedLookup_eq distinct keeps allNames allFixed sorted text

/-- After {lit}`Sin` has been refused, {lit}`cost` is found as a name and not as a function, also
when the fixed spellings are sorted and looked up on their own. -/
theorem longest_spelling_of_cost :
    let table := SymbolTable.requested [.add "Sin", .add "cost", .bind "t" (.load .x)]
    table.bindings = [⟨"cost".toList, .x⟩] ∧
      table.lookup "COST".toList = some (4, .load .x) ∧
      mergedLookup SymbolTable.longerOf [⟨"cost".toList, .load .x⟩]
        (builtins.mergeSort fun first second => second.spelling.length ≤ first.spelling.length)
        "COST".toList = some (4, .load .x) := by
  intro table
  have bound : table.bindings = [⟨"cost".toList, .x⟩] := by decide +kernel
  obtain ⟨found, _, _, merged⟩ := longest_spelling_well_defined
    [.add "Sin", .add "cost", .bind "t" (.load .x)] "1+COST".toList 2
  have longest : IsLongest table.symbols "COST".toList ⟨"cost".toList, .load .x⟩ :=
    ⟨by decide +kernel, by decide +kernel, by decide +kernel⟩
  have first : table.lookup "COST".toList = some (4, .load .x) :=
    (found 4 (.load .x)).mpr ⟨_, longest, rfl, rfl⟩
  refine ⟨bound, first, (merged _ _ _ SymbolTable.keepsLonger_longerOf ?_ ?_ ?_).trans first⟩
  · exact .of_eq (congrArg (List.map Binding.symbol) bound).symm
  · exact List.mergeSort_perm _ _
  · refine (List.pairwise_mergeSort ?_ ?_ builtins).imp of_decide_eq_true
    · intro a b c
      simp only [decide_eq_true_eq]
      omega
    · intro a b
      simp only [Bool.or_eq_true, decide_eq_true_eq]
      omega

end TapeCalc
