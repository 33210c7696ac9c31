import TapeCalc.Proofs.Lexer.Answers
import TapeCalc.Proofs.Lexer.ReadAlike
import TapeCalc.Proofs.Literal.SameLetters
import TapeCalc.Proofs.Symbols.LongestMatch

/-!
# Reading texts with the same letters

Texts with the same letters are read alike, over tables whose names have the same letters: they
have the same gaps, the same spellings are found in them, and their literals have the same
values.  What is found stands at the same places in both.

Main definitions:

- {lit}`SymbolTable.RespelledIn`: symbols that another table has with the same letters.
- {lit}`Lexer.Respelled`: lexers in front of texts with the same letters.

Main results:

- Theorem {lit}`SymbolTable.lookup_respelled`: the longest spelling in both texts.
- Theorem {lit}`Lexer.readAlike_respelled`: the texts are read alike.
-/

namespace TapeCalc

/-! ## Tables -/

/-- Of two names with the same letters both are empty, or neither is. -/
theorem SameLetters.ne_empty {name name' : String} (same : SameLetters name.toList name'.toList)
    (named : name ≠ "") : name' ≠ "" := by
  intro empty
  have letters := same.eq_nil_iff.mp (String.toList_eq_nil_iff.mpr empty)
  exact named (String.toList_eq_nil_iff.mp letters)

namespace SymbolTable

/-- Every symbol of the table has the same letters as one of another table, for the same token. -/
def RespelledIn (table table' : SymbolTable) : Prop :=
  ∀ symbol ∈ table.symbols, ∃ symbol' ∈ table'.symbols,
    symbol'.token = symbol.token ∧ SameLetters symbol.spelling symbol'.spelling

variable {table table' : SymbolTable} {text text' : List Char}

/-- What is found in one text is found in the other. -/
theorem RespelledIn.lookup_eq_some (there : table.RespelledIn table')
    (back : table'.RespelledIn table) (distinct : table'.Distinct) (texts : SameLetters text text')
    {length : Nat} {token : Token} (found : table.lookup text = some (length, token)) :
    table'.lookup text' = some (length, token) := by
  have longest := longest_of_lookup found
  obtain ⟨symbol, member, starts, rfl, rfl⟩ := exists_of_lookup found
  obtain ⟨symbol', member', token, letters⟩ := there symbol member
  have starts' : startsWith symbol'.spelling text' = true := by
    rwa [startsWith_congr letters texts]
  have longest' : ∀ other ∈ table'.symbols, startsWith other.spelling text' = true →
      other.spelling.length ≤ symbol'.spelling.length := by
    intro other otherMember otherStarts
    obtain ⟨first, firstMember, _, same⟩ := back other otherMember
    rw [letters.length_eq, ← same.length_eq]
    exact longest first firstMember (by rwa [startsWith_congr same texts.symm])
  exact (lookup_eq_some_iff distinct).mpr
    ⟨symbol', ⟨member', starts', longest'⟩, letters.length_eq, token⟩

/-- In texts with the same letters the same is found. -/
theorem lookup_respelled (there : table.RespelledIn table') (back : table'.RespelledIn table)
    (distinct : table.Distinct) (distinct' : table'.Distinct) (texts : SameLetters text text') :
    table'.lookup text' = table.lookup text := by
  refine Option.ext fun entry => ⟨fun found => ?_, fun found => ?_⟩
  · exact back.lookup_eq_some there distinct texts.symm found
  · exact there.lookup_eq_some back distinct' texts found

/-- The tables for names with the same letters. -/
theorem respelledIn_of_ofNames {xName yName xName' yName' : String}
    (bound : ofNames xName yName = .ok table) (bound' : ofNames xName' yName' = .ok table')
    (sameX : SameLetters xName.toList xName'.toList)
    (sameY : SameLetters yName.toList yName'.toList) : table.RespelledIn table' := by
  intro symbol member
  rcases mem_symbols.mp member with ⟨binding, inside, rfl⟩ | fixed
  · rcases (mem_bindings_of_ofNames bound binding).mp inside with ⟨named, rfl⟩ | ⟨named, rfl⟩
    · have inside' := (mem_bindings_of_ofNames bound' ⟨xName'.toList, .x⟩).mpr
        (Or.inl ⟨sameX.ne_empty named, rfl⟩)
      exact ⟨_, mem_symbols.mpr (Or.inl ⟨_, inside', rfl⟩), rfl, sameX⟩
    · have inside' := (mem_bindings_of_ofNames bound' ⟨yName'.toList, .y⟩).mpr
        (Or.inr ⟨sameY.ne_empty named, rfl⟩)
      exact ⟨_, mem_symbols.mpr (Or.inl ⟨_, inside', rfl⟩), rfl, sameY⟩
  · exact ⟨symbol, mem_symbols.mpr (Or.inr fixed), rfl, .refl _⟩

end SymbolTable

/-- Names with the same letters clash alike. -/
theorem NamesClash.of_sameLetters {xName yName xName' yName' : String}
    (sameX : SameLetters xName.toList xName'.toList)
    (sameY : SameLetters yName.toList yName'.toList) (clash : NamesClash xName yName) :
    NamesClash xName' yName' := by
  rcases clash with ⟨named, symbol, fixed, same⟩ | ⟨named, symbol, fixed, same⟩ |
    ⟨namedX, namedY, same⟩
  · refine Or.inl ⟨sameX.ne_empty named, symbol, fixed, ?_⟩
    rwa [sameSpelling_congr (.refl _) sameX]
  · refine Or.inr (Or.inl ⟨sameY.ne_empty named, symbol, fixed, ?_⟩)
    rwa [sameSpelling_congr (.refl _) sameY]
  · refine Or.inr (Or.inr ⟨sameX.ne_empty namedX, sameY.ne_empty namedY, ?_⟩)
    rwa [sameSpelling_congr sameX sameY]

/-! ## Gaps -/

/-- Texts with the same letters have one gap, and behind it they have the same letters. -/
theorem SameLetters.gap {text text' : List Char} (same : SameLetters text text') (position : Nat)
    (openedAt : Option Nat) :
    (Gap.scan position openedAt text').position = (Gap.scan position openedAt text).position ∧
      (Gap.scan position openedAt text').openedAt = (Gap.scan position openedAt text).openedAt ∧
      SameLetters (Gap.scan position openedAt text).rest
        (Gap.scan position openedAt text').rest := by
  have mark : HasOneForm commentMark := by decide
  induction same generalizing position openedAt with
  | nil => exact ⟨rfl, rfl, .nil⟩
  | @cons c c' rest rest' letter others ih =>
    rw [Gap.scan, Gap.scan, oneFormed_isBlank.eq_of_upper_eq letter]
    simp only [mark.eq_iff letter]
    split
    · exact ih _ _
    · split
      · exact ⟨rfl, rfl, .cons letter others⟩
      · exact ih _ _

/-! ## Lexers -/

namespace Lexer

/-- Lexers with one pool at one position, in front of texts with the same letters. -/
structure Respelled (left right : Lexer) : Prop where
  rest : SameLetters left.rest right.rest
  position : right.position = left.position
  pool : right.pool = left.pool

variable {symbols symbols' : SymbolTable}

/-- What takes the same number of characters of texts with the same letters. -/
theorem sameScan_taken (position length : Nat) {rest rest' : List Char}
    (same : SameLetters rest rest') (openedAt : Option Nat) (finding : Finding) :
    SameScan id Respelled ((Gap.mk position rest openedAt).taken length finding)
      ((Gap.mk position rest' openedAt).taken length finding) :=
  ⟨rfl, rfl, fun _ => ⟨same.drop length, rfl, rfl⟩⟩

/-- In texts with the same letters a scan finds the same. -/
theorem sameScan_respelled (there : symbols.RespelledIn symbols')
    (back : symbols'.RespelledIn symbols) (distinct : symbols.Distinct)
    (distinct' : symbols'.Distinct) (position : Nat) {text text' : List Char}
    (same : SameLetters text text') :
    SameScan id Respelled (scan symbols position text) (scan symbols' position text') := by
  obtain ⟨ends, opened, left⟩ := same.gap position none
  rw [scan, scan]
  generalize Gap.scan position none text = gap at ends opened left ⊢
  generalize Gap.scan position none text' = gap' at ends opened left ⊢
  rcases gap with ⟨start, rest, openedAt⟩
  rcases gap' with ⟨start', rest', openedAt'⟩
  dsimp only at ends opened left ⊢
  subst ends opened
  cases openedAt' with
  | some opened => exact ⟨rfl, rfl, fun _ => ⟨left, rfl, rfl⟩⟩
  | none =>
    dsimp only
    rw [SymbolTable.lookup_respelled there back distinct distinct' left]
    cases symbols.lookup rest with
    | some entry => exact sameScan_taken _ _ left _ _
    | none =>
      have run := Literal.sameLetters_run left
      cases left with
      | nil => exact sameScan_taken _ _ .nil _ _
      | @cons c c' rest rest' letter others =>
        dsimp only
        rw [Literal.oneFormed_opens.eq_of_upper_eq letter]
        cases opens : Literal.opens c with
        | true =>
          obtain ⟨more, head⟩ := Literal.run_of_opens rest opens
          rw [if_pos rfl, if_pos rfl, Finding.ofRun, Finding.ofRun, run.value?_eq head opens,
            run.length_eq]
          exact sameScan_taken _ _ (.cons letter others) _ _
        | false =>
          rw [if_neg Bool.false_ne_true, if_neg Bool.false_ne_true]
          exact ⟨rfl, rfl, fun _ => ⟨.cons letter others, rfl, rfl⟩⟩

/-- Texts with the same letters are read alike. -/
theorem readAlike_respelled (there : symbols.RespelledIn symbols')
    (back : symbols'.RespelledIn symbols) (distinct : symbols.Distinct)
    (distinct' : symbols'.Distinct) : ReadAlike symbols symbols' id Respelled where
  pool states := states.pool
  scan := by
    intro left right states
    rw [states.position]
    exact sameScan_respelled there back distinct distinct' left.position states.rest

end Lexer

end TapeCalc
