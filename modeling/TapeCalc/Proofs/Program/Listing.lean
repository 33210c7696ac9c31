import TapeCalc.Program.Listing
import TapeCalc.Proofs.Decimal.Notation

/-!
# Listings can be read back

The entries of a listing have different texts, and there is no space in them, so a listing tells
which entries it shows.  The entries show the words of a tape, but for the indices of constants,
in whose place they show the values.  With a pool that holds no value twice the words can be told
from the entries as well.

Main definitions:

- {lit}`ListingEntry.operand?`: what an entry shows in parentheses.
- {lit}`ListingEntry.words`: the words that an entry stands for.

Main results:

- Theorem {lit}`ListingEntry.text_injective`: entries with the same text are the same.
- Theorem {lit}`Program.entries_eq_of_listing_eq`: so are the entries of two listings.
- Theorem {lit}`ListingEntry.ofWords_injective`: and so are the words, if the pool holds no value
  twice.
-/

namespace TapeCalc

/-! ## Names of instructions -/

namespace Opcode

/-- The instructions in the order of their words. -/
def all : List Opcode := (List.range 22).filterMap fun code => ofWord? (UInt16.ofNat code)

/-- These are all instructions. -/
theorem mem_all (opcode : Opcode) : opcode ∈ all := by
  rcases opcode with _ | op | slot | op | _ | _
  · decide
  · cases op <;> decide
  · cases slot <;> decide
  · cases op <;> decide
  · decide
  · decide

/-- Instructions with the same name are the same. -/
theorem name_injective : Function.Injective name := fun opcode opcode' same =>
  have nodup : (all.map name).Nodup := by decide +kernel
  List.inj_on_of_nodup_map nodup (mem_all opcode) (mem_all opcode') same

/-- Names consist of letters and digits. -/
theorem isPlain_of_mem_name {opcode : Opcode} {c : Char} (member : c ∈ opcode.name.toList) :
    isPlain c = true := by
  have plain : (all.all fun opcode => opcode.name.toList.all isPlain) = true := by decide +kernel
  exact List.all_eq_true.mp (List.all_eq_true.mp plain opcode (mem_all opcode)) c member

/-- No name is empty. -/
theorem name_ne_nil (opcode : Opcode) : opcode.name.toList ≠ [] := by
  have shown : (all.all fun opcode => !opcode.name.toList.isEmpty) = true := by decide +kernel
  simpa using List.all_eq_true.mp shown opcode (mem_all opcode)

end Opcode

/-! ## Texts of entries -/

/-- A number with a mark in front of it shows the mark and its digits. -/
theorem not_mem_marked (n : Nat) {mark c : Char} (different : c ≠ mark)
    (special : isPlain c = false) : c ∉ mark :: Nat.toDigits 10 n := by
  intro member
  rcases List.mem_cons.mp member with same | digit
  · exact different same
  · have opens : Literal.opens c = true := by
      rw [Literal.opens, allDigits_toDigits n c digit, Bool.true_or]
    rw [isPlain_of_opens opens] at special
    cases special

/-- The text of a double does not start with a mark. -/
theorem plainText_ne_marked {value : Float} {mark : Char} {rest : List Char}
    (special : isPlain mark = false) : (plainText value).toList ≠ mark :: rest := by
  intro shown
  rw [isPlain_of_mem_plainText (shown ▸ List.mem_cons_self)] at special
  cases special

namespace ListingEntry

/-- What an entry shows in parentheses behind the instruction that loads a constant. -/
def operand? : ListingEntry → Option (List Char)
  | constant value => some (plainText value).toList
  | outOfRange index => some ('#' :: Nat.toDigits 10 index.toNat)
  | missingOperand => some ['?']
  | instruction _ => none
  | undefined _ => none

/-- An entry that loads a constant shows the instruction and an operand in parentheses. -/
theorem text_of_operand? {entry : ListingEntry} {operand : List Char}
    (h : entry.operand? = some operand) :
    entry.text.toList = Opcode.loadConst.name.toList ++ '(' :: (operand ++ [')']) := by
  cases entry with
  | constant value =>
    cases h
    simp [text]
  | outOfRange index =>
    cases h
    simp [text]
  | missingOperand =>
    cases h
    rfl
  | instruction _ | undefined _ => cases h

/-- A word without meaning is shown by its number behind a question mark. -/
theorem text_undefined (word : Word) :
    (undefined word).text.toList = '?' :: Nat.toDigits 10 word.toNat := by
  simp [text]

/-- An entry that loads no constant shows no parenthesis. -/
theorem not_mem_text_of_operand? {entry : ListingEntry} (h : entry.operand? = none) :
    '(' ∉ entry.text.toList := by
  intro member
  cases entry with
  | instruction opcode => cases Opcode.isPlain_of_mem_name member
  | undefined word =>
    rw [text_undefined] at member
    exact not_mem_marked _ (by decide) rfl member
  | _ => cases h

/-- No entry shows a space. -/
theorem space_not_mem_text (entry : ListingEntry) : ' ' ∉ entry.text.toList := by
  intro member
  have loaded {operand : List Char} (shown : entry.operand? = some operand) : ' ' ∈ operand := by
    rw [text_of_operand? shown] at member
    simpa [Opcode.name] using member
  cases entry with
  | instruction opcode => cases Opcode.isPlain_of_mem_name member
  | constant value => cases isPlain_of_mem_plainText (loaded rfl)
  | outOfRange index => exact not_mem_marked _ (by decide) rfl (loaded rfl)
  | missingOperand =>
    have space := List.mem_singleton.mp (loaded rfl)
    cases space
  | undefined word =>
    rw [text_undefined] at member
    exact not_mem_marked _ (by decide) rfl member

/-- No entry has an empty text. -/
theorem text_ne_nil (entry : ListingEntry) : entry.text.toList ≠ [] := by
  cases shown : entry.operand? with
  | some operand =>
    rw [text_of_operand? shown]
    simp
  | none =>
    cases entry with
    | instruction opcode => exact opcode.name_ne_nil
    | undefined word =>
      rw [text_undefined]
      exact List.cons_ne_nil _ _
    | _ => cases shown

/-- Entries with the same text show the same operand. -/
theorem operand?_eq_of_text_eq {entry entry' : ListingEntry} (same : entry.text = entry'.text) :
    entry.operand? = entry'.operand? := by
  cases shown : entry.operand? with
  | none =>
    cases shown' : entry'.operand? with
    | none => rfl
    | some operand' =>
      have absent := not_mem_text_of_operand? shown
      rw [same, text_of_operand? shown'] at absent
      simp at absent
  | some operand =>
    cases shown' : entry'.operand? with
    | none =>
      have absent := not_mem_text_of_operand? shown'
      rw [← same, text_of_operand? shown] at absent
      simp at absent
    | some operand' =>
      have texts := congrArg String.toList same
      rw [text_of_operand? shown, text_of_operand? shown'] at texts
      simpa using texts

/-- Words with the same digits are the same. -/
theorem word_eq_of_toDigits_eq {word word' : Word}
    (same : Nat.toDigits 10 word.toNat = Nat.toDigits 10 word'.toNat) : word = word' :=
  UInt16.toNat_inj.mp (toDigits_injective same)

/-- Entries that show the same operand are the same. -/
theorem eq_of_operand? {entry entry' : ListingEntry} {operand : List Char}
    (h : entry.operand? = some operand) (h' : entry'.operand? = some operand) :
    entry = entry' := by
  have same := h.trans h'.symm
  cases entry with
  | constant value =>
    cases entry' with
    | constant value' =>
      exact congrArg constant (plainText_injective (String.toList_inj.mp (Option.some.inj same)))
    | outOfRange _ | missingOperand => exact absurd (Option.some.inj same) (plainText_ne_marked rfl)
    | instruction _ | undefined _ => cases h'
  | outOfRange index =>
    cases entry' with
    | constant value => exact absurd (Option.some.inj same).symm (plainText_ne_marked rfl)
    | outOfRange index' =>
      exact congrArg outOfRange (word_eq_of_toDigits_eq (List.cons.inj (Option.some.inj same)).2)
    | missingOperand => cases same
    | instruction _ | undefined _ => cases h'
  | missingOperand =>
    cases entry' with
    | constant value => exact absurd (Option.some.inj same).symm (plainText_ne_marked rfl)
    | outOfRange index => cases same
    | missingOperand => rfl
    | instruction _ | undefined _ => cases h'
  | instruction _ | undefined _ => cases h

/-- No instruction has the text of a word without meaning. -/
theorem name_ne_text_undefined (opcode : Opcode) (word : Word) :
    opcode.name ≠ (undefined word).text := by
  intro named
  have letter : '?' ∈ opcode.name.toList := by
    rw [named, text_undefined]
    exact List.mem_cons_self
  cases Opcode.isPlain_of_mem_name letter

/-- Entries that load no constant and have the same text are the same. -/
theorem eq_of_text_eq {entry entry' : ListingEntry} (h : entry.operand? = none)
    (h' : entry'.operand? = none) (same : entry.text = entry'.text) : entry = entry' := by
  cases entry with
  | instruction opcode =>
    cases entry' with
    | instruction opcode' => exact congrArg instruction (Opcode.name_injective same)
    | undefined word => exact absurd same (name_ne_text_undefined opcode word)
    | _ => cases h'
  | undefined word =>
    cases entry' with
    | instruction opcode => exact absurd same.symm (name_ne_text_undefined opcode word)
    | undefined word' =>
      have texts := congrArg String.toList same
      rw [text_undefined, text_undefined] at texts
      exact congrArg undefined (word_eq_of_toDigits_eq (List.cons.inj texts).2)
    | _ => cases h'
  | _ => cases h

/-- Entries with the same text are the same. -/
theorem text_injective : Function.Injective text := by
  intro entry entry' same
  have operands := operand?_eq_of_text_eq same
  cases shown : entry.operand? with
  | some operand => exact eq_of_operand? shown (operands.symm.trans shown)
  | none => exact eq_of_text_eq shown (operands.symm.trans shown) same

end ListingEntry

/-! ## Listings -/

namespace Program

/-- A listing is cut at its spaces into the texts of its entries. -/
theorem splitOn_listing {program : Program} (nonempty : program.entries ≠ []) :
    program.listing.toList.splitOn ' ' =
      program.entries.map fun entry => entry.text.toList := by
  have joined : program.listing.toList =
      [' '].intercalate (program.entries.map fun entry => entry.text.toList) := by
    rw [listing, String.toList_intercalate, List.map_map]
    rfl
  rw [joined]
  refine List.splitOn_intercalate ' ' ?_ (List.map_eq_nil_iff.not.mpr nonempty)
  intro text member
  obtain ⟨entry, _, rfl⟩ := List.mem_map.mp member
  exact entry.space_not_mem_text

/-- Only the empty tape has an empty listing. -/
theorem entries_eq_nil_of_listing {program : Program} (empty : program.listing.toList = []) :
    program.entries = [] := by
  by_contra nonempty
  have texts := splitOn_listing nonempty
  rw [empty, List.splitOn_nil] at texts
  have member : [] ∈ program.entries.map fun entry => entry.text.toList :=
    texts ▸ List.mem_singleton_self []
  obtain ⟨entry, _, shown⟩ := List.mem_map.mp member
  exact entry.text_ne_nil shown

/-- Programs with the same listing have the same entries. -/
theorem entries_eq_of_listing_eq {program program' : Program}
    (same : program.listing = program'.listing) : program.entries = program'.entries := by
  by_cases empty : program.entries = []
  · have shown : program.listing.toList = [] := by
      rw [listing, empty]
      rfl
    rw [empty, entries_eq_nil_of_listing (same ▸ shown)]
  · have nonempty : program'.entries ≠ [] := by
      intro empty'
      refine empty (entries_eq_nil_of_listing ?_)
      rw [same, listing, empty']
      rfl
    have texts := (splitOn_listing empty).symm.trans ((congrArg _ (congrArg _ same)).trans
      (splitOn_listing nonempty))
    refine List.map_injective_iff.mpr (fun entry entry' shown => ?_) texts
    exact ListingEntry.text_injective (String.toList_inj.mp shown)

end Program

/-! ## Words of entries -/

namespace ListingEntry

/-- The words that an entry stands for, given the indices of the constants. -/
def words (indexOf : Float → Word) : ListingEntry → List Word
  | instruction opcode => [opcode.word]
  | constant value => [Opcode.loadConst.word, indexOf value]
  | outOfRange index => [Opcode.loadConst.word, index]
  | missingOperand => [Opcode.loadConst.word]
  | undefined word => [word]

/-- The entries of a tape stand for its words. -/
theorem flatMap_words_ofWords {constants : List Float} {indexOf : Float → Word}
    (known : ∀ index value, constants[UInt16.toNat index]? = some value → indexOf value = index)
    (tape : List Word) : (ofWords constants tape).flatMap (words indexOf) = tape := by
  fun_induction ofWords constants tape with
  | case1 => rfl
  | case2 word rest _ ih => rw [List.flatMap_cons, ih]; rfl
  | case3 word loads =>
    rw [← Opcode.word_of_ofWord? loads]
    rfl
  | case4 word loads index rest value found ih =>
    rw [← Opcode.word_of_ofWord? loads, List.flatMap_cons, ih, words, known index value found]
    rfl
  | case5 word loads index rest _ ih =>
    rw [← Opcode.word_of_ofWord? loads, List.flatMap_cons, ih]
    rfl
  | case6 word rest opcode _ stands ih =>
    rw [← Opcode.word_of_ofWord? stands, List.flatMap_cons, ih]
    rfl

/-- The index of a value can be told if no value is there twice. -/
theorem exists_indexOf {constants : List Float} (nodup : constants.Nodup) :
    ∃ indexOf : Float → Word, ∀ index value, constants[UInt16.toNat index]? = some value →
      indexOf value = index := by
  refine ⟨fun value =>
    Classical.epsilon fun index => constants[UInt16.toNat index]? = some value, ?_⟩
  intro index value found
  have chosen := Classical.epsilon_spec (⟨index, found⟩ :
    ∃ index, constants[UInt16.toNat index]? = some value)
  obtain ⟨inside, _⟩ := List.getElem?_eq_some_iff.mp chosen
  exact UInt16.toNat_inj.mp ((List.getElem?_inj inside nodup).mp (chosen.trans found.symm))

/-- Tapes with the same entries have the same words. -/
theorem ofWords_injective {constants : List Float} (nodup : constants.Nodup) :
    Function.Injective (ofWords constants) := by
  intro tape tape' same
  obtain ⟨indexOf, known⟩ := exists_indexOf nodup
  rw [← flatMap_words_ofWords known tape, same, flatMap_words_ofWords known]

end ListingEntry

end TapeCalc
