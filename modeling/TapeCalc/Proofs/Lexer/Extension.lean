import Mathlib.Data.List.Chain
import TapeCalc.Proofs.Lexer.Insertion
import TapeCalc.Proofs.Literal.SameLetters
import TapeCalc.Proofs.Symbols.LongestMatch

/-!
# Reading with more names

Names that are bound compete with the fixed spellings and with the literals of a text.  A text that
is read without names is read in the same way with names, if the grammar keeps its words apart and
no name can begin or go on where they are.

In a phrase no two words stand next to each other, where words are the tokens that are spelled with
letters or digits.  So behind a function or the circle constant stands nothing, a gap, an operator
or a parenthesis.  A name without these characters in it does not reach over the end of the word,
and it is not the word itself, because then it would not have been bound.

Main definitions:

- {lit}`Token.Apart`: tokens that may stand next to each other in a phrase.
- {lit}`KeepsApart`: names that begin like no literal and have no separator in them.

Main results:

- Theorem {lit}`Derives.isChain_apart`: no two words stand next to each other in a phrase.
- Theorem {lit}`SymbolTable.lookup_extended`: the longest spelling stays what it is.
- Theorem {lit}`Lexer.Yields.extended`: the lexemes of a text stay what they are.
-/

namespace TapeCalc

/-! ## Words of a phrase -/

/-- Whether a token is a word, spelled with letters or digits. -/
def Token.isWord : Token → Bool
  | load _ | pi | function _ | constant _ => true
  | _ => false

/-- At least one of two tokens is no word. -/
def Token.Apart (left right : Token) : Prop := left.isWord = false ∨ right.isWord = false

/-- An operator is no word. -/
theorem Rank.isWord_of_operator? {rank : Rank} {token : Token} {op : BinaryOp}
    (h : rank.operator? token = some op) : token.isWord = false := by
  cases token with
  | load _ | pi | function _ | constant _ => cases rank <;> cases h
  | _ => rfl

namespace Token

variable {token : Token} (plain : token.isWord = false)

include plain

/-- A token that is no word may stand in front of any tokens. -/
theorem isChain_cons {tokens : List Token} (chain : tokens.IsChain Apart) :
    (token :: tokens).IsChain Apart :=
  List.isChain_cons.mpr ⟨fun _ _ => Or.inl plain, chain⟩

/-- A token that is no word may stand between any tokens. -/
theorem isChain_around {left right : List Token} (chainLeft : left.IsChain Apart)
    (chainRight : right.IsChain Apart) : (left ++ token :: right).IsChain Apart := by
  refine List.isChain_append.mpr ⟨chainLeft, isChain_cons plain chainRight, ?_⟩
  rintro _ _ _ ⟨rfl⟩
  exact Or.inr plain

end Token

/-- No two words stand next to each other in a phrase. -/
theorem Derives.isChain_apart {rank : Rank} {tokens : List Token} {expr : Expr}
    (derives : Derives rank tokens expr) : tokens.IsChain Token.Apart := by
  induction derives with
  | single _ _ ih => exact ih
  | more _ isOperator _ ihFirst ihLast =>
    exact Token.isChain_around (Rank.isWord_of_operator? isOperator) ihFirst ihLast
  | literal _ | load _ | pi => exact .singleton _
  | group _ ih =>
    rw [List.cons_append]
    exact Token.isChain_cons rfl (Token.isChain_around rfl ih .nil)
  | signed sign _ ih => exact Token.isChain_cons rfl ih
  | call op _ ih =>
    rw [List.cons_append, List.cons_append]
    refine List.isChain_cons_cons.mpr ⟨Or.inr rfl, ?_⟩
    exact Token.isChain_cons rfl (Token.isChain_around rfl ih .nil)

/-! ## Separators -/

/-- The characters that words are kept apart by: operators, parentheses, blanks and the mark of
comments. -/
def separators : List Char := ['+', '-', '*', '/', '^', '(', ')', ' ', '\t', commentMark]

/-- A name that begins like no literal and has no separator in it. -/
structure KeepsApart (name : List Char) : Prop where
  opening : ∀ c, name.head? = some c → isDigit c = false ∧ c ≠ '.'
  inside : ∀ c ∈ name, c ∉ separators

/-- Whether a name keeps apart can be looked up character by character. -/
theorem keepsApart_iff {name : List Char} :
    KeepsApart name ↔ (name.head?.all fun c => !isDigit c && c != '.') = true ∧
      (name.all fun c => !separators.contains c) = true := by
  constructor
  · rintro ⟨opening, inside⟩
    exact ⟨by simpa [Option.all_eq_true] using opening, by simpa using inside⟩
  · rintro ⟨opening, inside⟩
    exact ⟨by simpa [Option.all_eq_true] using opening, by simpa using inside⟩

instance (name : List Char) : Decidable (KeepsApart name) := decidable_of_iff' _ keepsApart_iff

/-- No word goes on in a text: nothing follows, or a separator. -/
def EndsWord (rest : List Char) : Prop := ∀ c, rest.head? = some c → c ∈ separators

/-- A separator has one form only. -/
theorem hasOneForm_of_separator {c : Char} (separator : c ∈ separators) : HasOneForm c := by
  have all : separators.all (fun c => decide (HasOneForm c)) = true := by decide
  exact of_decide_eq_true (List.all_eq_true.mp all c separator)

/-- What is no word is spelled by one separator. -/
theorem exists_separator_of_builtins {symbol : Symbol} (fixed : symbol ∈ builtins)
    (noWord : symbol.token.isWord = false) : ∃ c ∈ separators, symbol.spelling = [c] := by
  have all : ∀ symbol ∈ builtins, symbol.token.isWord = false →
      symbol.spelling ∈ separators.map fun c => [c] := by decide
  obtain ⟨c, separator, spelled⟩ := List.mem_map.mp (all symbol fixed noWord)
  exact ⟨c, separator, spelled.symm⟩

/-- A gap begins with a separator. -/
theorem IsGap.endsWord_append {gap rest : List Char} (isGap : IsGap gap) (ends : EndsWord rest) :
    EndsWord (gap ++ rest) := by
  cases gap with
  | nil => exact ends
  | cons c gap =>
    rintro _ ⟨rfl⟩
    rcases opensGap_iff.mp (isGap.opensGap_head rfl) with rfl | rfl | rfl <;> decide

/-- A text that starts with a character of one form starts with that very character. -/
theorem head?_of_startsWith {c : Char} (plain : HasOneForm c) {text : List Char}
    (starts : startsWith [c] text = true) : text.head? = some c := by
  cases text with
  | nil => cases starts
  | cons d text =>
    simp only [startsWith, Bool.and_true] at starts
    have forms : upper d = upper c := eq_of_beq starts
    exact congrArg some (plain.eq_of_upper_eq_upper forms)

/-- A text that starts with what is no word starts with a separator. -/
theorem exists_separator_of_startsWith {symbol : Symbol} (fixed : symbol ∈ builtins)
    (noWord : symbol.token.isWord = false) {text : List Char}
    (starts : startsWith symbol.spelling text = true) : ∃ c ∈ separators, text.head? = some c := by
  obtain ⟨c, separator, spelling⟩ := exists_separator_of_builtins fixed noWord
  rw [spelling] at starts
  exact ⟨c, separator, head?_of_startsWith (hasOneForm_of_separator separator) starts⟩

namespace KeepsApart

variable {name : List Char}

/-- A name does not reach over a separator. -/
theorem length_le (h : KeepsApart name) {front rest : List Char} {c : Char}
    (separator : c ∈ separators) (starts : startsWith name (front ++ c :: rest) = true) :
    name.length ≤ front.length := by
  refine Nat.le_of_not_lt fun long => ?_
  have inside := mem_of_startsWith (hasOneForm_of_separator separator) front long starts
  exact h.inside c inside separator

/-- A name does not reach over the end of a word. -/
theorem length_le_of_endsWord (h : KeepsApart name) {word rest : List Char} (ends : EndsWord rest)
    (starts : startsWith name (word ++ rest) = true) : name.length ≤ word.length := by
  cases rest with
  | nil => simpa using startsWith_length starts
  | cons c rest => exact h.length_le (ends c rfl) starts

/-- No name begins where a literal does. -/
theorem startsWith_eq_false (h : KeepsApart name) (named : name ≠ []) {c : Char}
    (opens : Literal.opens c = true) (rest : List Char) : startsWith name (c :: rest) = false := by
  obtain ⟨s, more, rfl⟩ := List.exists_cons_of_ne_nil named
  obtain ⟨notDigit, notPoint⟩ := h.opening s rfl
  refine Bool.eq_false_iff.mpr fun starts => ?_
  have letter : upper c = upper s := by
    simp only [startsWith, Bool.and_eq_true] at starts
    exact eq_of_beq starts.1
  rw [Literal.oneFormed_opens.eq_of_upper_eq letter] at opens
  simp [Literal.opens, notDigit, notPoint] at opens

end KeepsApart

/-! ## Words with more names -/

namespace SymbolTable

/-- Every name of the table keeps apart from the words of a text. -/
def NamesKeepApart (table : SymbolTable) : Prop :=
  ∀ binding ∈ table.bindings, KeepsApart binding.name

/-- The table for names that keep apart. -/
theorem namesKeepApart_of_ofNames {xName yName : String} {table : SymbolTable}
    (bound : ofNames xName yName = .ok table) (plainX : KeepsApart xName.toList)
    (plainY : KeepsApart yName.toList) : table.NamesKeepApart := by
  intro binding member
  rcases name_of_ofNames bound binding member with same | same
  · rw [same]
    exact plainX
  · rw [same]
    exact plainY

variable {table : SymbolTable} {word rest : List Char}

/-- No name is longer than the fixed spelling at the start of a text, if the word ends there or is
one separator. -/
theorem NamesKeepApart.length_le (names : table.NamesKeepApart) {symbol : Symbol}
    (fixed : symbol ∈ builtins) (starts : startsWith symbol.spelling (word ++ rest) = true)
    (ends : symbol.token.isWord = true → EndsWord rest) {binding : Binding}
    (bound : binding ∈ table.bindings) (begins : startsWith binding.name (word ++ rest) = true) :
    binding.name.length ≤ word.length := by
  cases isWord : symbol.token.isWord with
  | true => exact (names binding bound).length_le_of_endsWord (ends isWord) begins
  | false =>
    obtain ⟨c, separator, head⟩ := exists_separator_of_startsWith fixed isWord starts
    obtain ⟨more, whole⟩ := List.head?_eq_some_iff.mp head
    rw [whole] at begins
    have none : binding.name.length ≤ [].length :=
      (names binding bound).length_le separator begins
    exact Nat.le_trans none (Nat.zero_le _)

/-- The longest fixed spelling at the start of a text is still the longest among the names, if the
word ends there or is one separator. -/
theorem lookup_extended (distinct : table.Distinct) (names : table.NamesKeepApart) {token : Token}
    (found : empty.lookup (word ++ rest) = some (word.length, token))
    (ends : token.isWord = true → EndsWord rest) :
    table.lookup (word ++ rest) = some (word.length, token) := by
  have fixed := distinct_of_reachable .empty
  obtain ⟨symbol, longest, length, rfl⟩ := (lookup_eq_some_iff fixed).mp found
  refine (lookup_eq_some_iff distinct).mpr ⟨symbol, ⟨?_, longest.starts, ?_⟩, length, rfl⟩
  · exact mem_symbols.mpr (Or.inr longest.member)
  · intro other member begins
    rcases mem_symbols.mp member with ⟨binding, bound, rfl⟩ | fixed
    · rw [length]
      exact names.length_le longest.member longest.starts ends bound begins
    · exact longest.longest other fixed begins

end SymbolTable

/-- Whatever index a literal gets, it is a word. -/
theorem Finding.Becomes.isWord_eq {finding : Finding} {token token' : Token}
    (becomes : finding.Becomes token) (becomes' : finding.Becomes token') :
    token'.isWord = token.isWord := by
  cases becomes <;> cases becomes' <;> rfl

section Words

variable {table : SymbolTable} (named : ∀ symbol ∈ table.symbols, symbol.spelling ≠ [])
  (distinct : table.Distinct) (names : table.NamesKeepApart)

include named distinct names

/-- A word that is read without names is read in the same way with names, if it ends where it is
read or is one separator. -/
theorem Spells.extended {word rest : List Char} {finding : Finding}
    (spells : Spells .empty word rest finding)
    (ends : ∀ token, finding.Becomes token → token.isWord = true → EndsWord rest) :
    Spells table word rest finding := by
  cases spells with
  | symbol found =>
    exact .symbol (SymbolTable.lookup_extended distinct names found (ends _ (.symbol _)))
  | @literal c more value head opens missing run read =>
    refine .literal head opens ?_ run read
    subst head
    refine SymbolTable.lookup_eq_none_iff.mpr fun symbol member => ?_
    rcases SymbolTable.mem_symbols.mp member with ⟨binding, bound, rfl⟩ | fixed
    · exact (names binding bound).startsWith_eq_false (named _ member) opens _
    · exact SymbolTable.lookup_eq_none_iff.mp missing symbol fixed

end Words

/-! ## Lexemes with more names -/

namespace Lexer

/-- In front of the end, or of a lexeme that is no word, no word goes on. -/
theorem Yields.endsWord {before after : Lexer} {lexemes : List Lexeme}
    (yields : Yields .empty before lexemes after)
    (plain : ∀ token, (tokensOf lexemes).head? = some token → token.isWord = false) :
    EndsWord before.rest := by
  have named := SymbolTable.Reachable.empty.spelling_ne_nil
  cases yields with
  | finished ended =>
    have nothing : EndsWord [] := fun _ head => by cases head
    have ends := (isGap_of_next ended).endsWord_append nothing
    rwa [List.append_nil] at ends
  | @lexeme _ mid _ token _ taken _ =>
    have noWord := plain token rfl
    obtain ⟨tile, whole, begins, becomes, _⟩ := exists_begins_of_next named taken
    rw [whole]
    refine begins.gap.endsWord_append ?_
    rcases tile with ⟨gap, word, finding⟩
    cases becomes with
    | literal value index => cases noWord
    | symbol =>
      cases begins.spells with
      | symbol found =>
        obtain ⟨symbol, member, starts, _, rfl⟩ := SymbolTable.exists_of_lookup found
        obtain ⟨c, separator, first⟩ := exists_separator_of_startsWith member noWord starts
        intro d head
        cases first.symm.trans head
        exact separator

/-- The lexemes of a text without names are its lexemes with names, if no two of them that are words
stand next to each other. -/
theorem Yields.extended {table : SymbolTable}
    (named : ∀ symbol ∈ table.symbols, symbol.spelling ≠ []) (distinct : table.Distinct)
    (names : table.NamesKeepApart) {before after : Lexer} {lexemes : List Lexeme}
    (yields : Yields .empty before lexemes after)
    (chain : (tokensOf lexemes).IsChain Token.Apart) : Yields table before lexemes after := by
  have fixed := SymbolTable.Reachable.empty.spelling_ne_nil
  induction yields with
  | finished ended =>
    have isGap := isGap_of_next ended
    rw [next_eq, scan_of_isGap fixed isGap] at ended
    exact .finished (by rwa [next_eq, scan_of_isGap named isGap])
  | @lexeme before mid after token lexemes taken rest ih =>
    obtain ⟨apart, chain⟩ := List.isChain_cons.mp chain
    obtain ⟨tile, whole, begins, becomes, _⟩ := exists_begins_of_next fixed taken
    have ends (other : Token) (found : tile.finding.Becomes other) (isWord : other.isWord = true) :
        EndsWord mid.rest := by
      refine rest.endsWord fun next head => ?_
      rw [becomes.isWord_eq found] at isWord
      exact (apart next head).resolve_left (by simp [isWord])
    have begins' : Begins table tile mid.rest :=
      ⟨begins.gap, begins.ends, begins.spells.extended named distinct names ends⟩
    rw [next_of_begins begins whole] at taken
    refine .lexeme ?_ (ih chain)
    rwa [next_of_begins begins' whole]

end Lexer

end TapeCalc
