import TapeCalc.Literal.Grammar
import TapeCalc.Proofs.Literal.Value

/-!
# Literals are the numerals of the grammar

A literal is scanned part by part from left to right, and what a part has taken is never given
back.  The grammar says of a text only that it falls into such parts.  Both agree because each part
ends where a character follows that it cannot go on with.

What the grammar allows is also what is read as a double, once the blanks behind it are gone.  A
double can be written in other ways as well, by the names of infinity and of what is no number, but
these are no literals.

Main definitions:

- {lit}`Literal.EndsDigits`: no digit comes next.
- {lit}`Literal.EndsMantissa`: neither a digit nor a point comes next.

Main results:

- Theorem {lit}`Literal.isNumeric_iff_isNumeral`: which texts are literals.
- Theorem {lit}`Literal.isSome_value?_iff`: every literal has a value, and nothing else has.
- Theorem {lit}`Literal.literals_are_numerals`: both together, and the names that are no literals.
-/

namespace TapeCalc

namespace Literal

/-! ## Where parts end -/

/-- No digit comes next. -/
def EndsDigits (rest : List Char) : Prop := ∀ c, rest.head? = some c → isDigit c = false

/-- Neither a digit nor a point comes next. -/
def EndsMantissa (rest : List Char) : Prop :=
  ∀ c, rest.head? = some c → isDigit c = false ∧ c ≠ '.'

/-- What ends a mantissa ends its digits. -/
theorem EndsMantissa.endsDigits {rest : List Char} (ends : EndsMantissa rest) : EndsDigits rest :=
  fun c head => (ends c head).1

/-- Where digits end, no digit can be taken. -/
theorem EndsDigits.takeWhile {rest : List Char} (ends : EndsDigits rest) :
    rest.takeWhile isDigit = [] := by
  cases rest with
  | nil => rfl
  | cons c rest => exact List.takeWhile_cons_of_neg (by simp [ends c rfl])

/-- Where digits end, no digit is dropped. -/
theorem EndsDigits.dropWhile {rest : List Char} (ends : EndsDigits rest) :
    rest.dropWhile isDigit = rest := by
  cases rest with
  | nil => rfl
  | cons c rest => exact List.dropWhile_cons_of_neg (by simp [ends c rfl])

/-- Digits are taken up to their end. -/
theorem IsDigits.takeWhile_append {digits rest : List Char} (h : IsDigits digits)
    (ends : EndsDigits rest) : (digits ++ rest).takeWhile isDigit = digits := by
  rw [List.takeWhile_append_of_pos h, ends.takeWhile, List.append_nil]

/-- Digits are dropped up to their end. -/
theorem IsDigits.dropWhile_append {digits rest : List Char} (h : IsDigits digits)
    (ends : EndsDigits rest) : (digits ++ rest).dropWhile isDigit = rest := by
  rw [List.dropWhile_append_of_pos h, ends.dropWhile]

/-- What has been taken as digits is digits. -/
theorem isDigits_takeWhile (text : List Char) : IsDigits (text.takeWhile isDigit) :=
  List.all_eq_true.mp List.all_takeWhile

/-- A text that is all blanks goes on with no digit. -/
theorem endsMantissa_of_blanks {blanks : List Char} (h : ∀ c ∈ blanks, isBlank c = true) :
    EndsMantissa blanks := by
  intro c head
  have blank := h c (List.mem_of_mem_head? head)
  simp only [isBlank, Bool.or_eq_true, beq_iff_eq] at blank
  rcases blank with rfl | rfl <;> decide

/-! ## Signs -/

/-- Behind its sign a text goes on as it is. -/
theorem exists_signPart (text : List Char) :
    ∃ sign, IsSignPart sign ∧ text = sign ++ (splitSign text).2 := by
  cases text with
  | nil => exact ⟨[], Or.inl rfl, rfl⟩
  | cons c rest =>
    rw [splitSign]
    split
    · exact ⟨[c], Or.inr ⟨c, ‹_›, rfl⟩, rfl⟩
    · exact ⟨[], Or.inl rfl, rfl⟩

/-- A sign is split off in front of a text that has none. -/
theorem splitSign_append {sign body : List Char} (h : IsSignPart sign)
    (unsigned : ∀ c, body.head? = some c → isSign c = false) :
    (splitSign (sign ++ body)).2 = body := by
  rcases h with rfl | ⟨c, isSign, rfl⟩
  · cases body with
    | nil => rfl
    | cons c body => rw [List.nil_append, splitSign, if_neg (by simp [unsigned c rfl])]
  · rw [List.singleton_append, splitSign, if_pos isSign]

/-- Digits have no sign in front of them. -/
theorem IsDigits.unsigned {digits : List Char} (h : IsDigits digits) (some : digits ≠ [])
    (rest : List Char) (c : Char) (head : (digits ++ rest).head? = .some c) : isSign c = false := by
  obtain ⟨first, more, rfl⟩ := List.exists_cons_of_ne_nil some
  obtain rfl : first = c := Option.some.inj head
  exact isSign_of_opens (by simp [opens, h first List.mem_cons_self])

/-! ## Mantissas -/

/-- A text has a mantissa in front if there is a digit before its point or behind it. -/
theorem afterDigits?_eq (text : List Char) :
    afterDigits? text =
      if (text.takeWhile isDigit).isEmpty && (Decimal.fraction (text.dropWhile isDigit)).1.isEmpty
      then none else some (Decimal.fraction (text.dropWhile isDigit)).2 := by
  rw [afterDigits?]
  cases text.dropWhile isDigit with
  | nil => simp [Decimal.fraction]
  | cons c rest =>
    simp only [Decimal.fraction]
    split <;> simp

/-- Behind a point digits are taken, and where there is no point nothing is. -/
theorem fraction_cases (text : List Char) :
    (∃ part rest, IsDigits part ∧ text = '.' :: (part ++ rest) ∧
        Decimal.fraction text = (part, rest)) ∨
      Decimal.fraction text = ([], text) := by
  cases text with
  | nil => exact Or.inr rfl
  | cons c text =>
    rw [Decimal.fraction]
    split
    · rename_i point
      refine Or.inl ⟨_, _, isDigits_takeWhile text, ?_, rfl⟩
      rw [point, List.takeWhile_append_dropWhile]
    · exact Or.inr rfl

/-- A text that starts with neither a digit nor a point has no digits behind a point. -/
theorem EndsMantissa.fraction {rest : List Char} (ends : EndsMantissa rest) :
    Decimal.fraction rest = ([], rest) := by
  cases rest with
  | nil => rfl
  | cons c rest => rw [Decimal.fraction, if_neg (ends c rfl).2]

/-- What has been taken in front of the rest of a text is a mantissa. -/
theorem exists_mantissa {text rest : List Char} (h : afterDigits? text = some rest) :
    ∃ mantissa, IsMantissa mantissa ∧ text = mantissa ++ rest := by
  have digits := isDigits_takeWhile text
  have whole := (List.takeWhile_append_dropWhile (p := isDigit) (l := text)).symm
  rw [afterDigits?_eq] at h
  generalize text.takeWhile isDigit = front at h digits whole
  generalize text.dropWhile isDigit = left at h whole
  split at h
  · cases h
  · rename_i found
    cases h
    rcases fraction_cases left with ⟨part, rest, digits', rfl, taken⟩ | untouched
    · rw [taken] at found ⊢
      refine ⟨front ++ '.' :: part, Or.inr ⟨front, part, digits, digits', ?_, rfl⟩, ?_⟩
      · simpa [Classical.or_iff_not_imp_left] using found
      · rw [whole, List.append_assoc, List.cons_append]
    · rw [untouched] at found ⊢
      exact ⟨front, Or.inl ⟨digits, by simpa using found⟩, whole⟩

/-- A mantissa is taken up to its end. -/
theorem IsMantissa.afterDigits? {mantissa rest : List Char} (h : IsMantissa mantissa)
    (ends : EndsMantissa rest) : afterDigits? (mantissa ++ rest) = some rest := by
  rw [afterDigits?_eq]
  rcases h with ⟨digits, nonempty⟩ | ⟨whole, part, digits, digits', nonempty, rfl⟩
  · rw [digits.takeWhile_append ends.endsDigits, digits.dropWhile_append ends.endsDigits,
      ends.fraction]
    simp [nonempty]
  · have point : EndsDigits ('.' :: (part ++ rest)) := by
      rintro c ⟨rfl⟩
      decide
    rw [List.append_assoc, List.cons_append, digits.takeWhile_append point,
      digits.dropWhile_append point, Decimal.fraction, if_pos rfl,
      digits'.takeWhile_append ends.endsDigits, digits'.dropWhile_append ends.endsDigits]
    simp only [Bool.and_eq_true, List.isEmpty_iff, if_neg (not_and_or.mpr nonempty)]

/-! ## Exponents -/

/-- What has been taken in front of the rest of a text is an exponent. -/
theorem exists_exponentPart {text rest : List Char} (h : afterExponent? text = some rest) :
    ∃ exponent, IsExponentPart exponent ∧ text = exponent ++ rest := by
  cases text with
  | nil =>
    cases h
    exact ⟨[], Or.inl rfl, rfl⟩
  | cons c text =>
    rw [Literal.afterExponent?] at h
    split at h
    · rename_i mark
      dsimp only at h
      split at h
      · cases h
      · rename_i found
        cases h
        obtain ⟨sign, isSign, split⟩ := exists_signPart text
        refine ⟨c :: (sign ++ (splitSign text).2.takeWhile isDigit), Or.inr ⟨c, sign, _, mark,
          isSign, isDigits_takeWhile _, ?_, rfl⟩, ?_⟩
        · simpa using found
        · rw [List.cons_append, List.append_assoc, List.takeWhile_append_dropWhile, ← split]
    · cases h
      exact ⟨[], Or.inl rfl, rfl⟩

/-- An exponent is taken up to the blanks behind it. -/
theorem IsExponentPart.afterExponent? {exponent blanks : List Char} (h : IsExponentPart exponent)
    (isBlanks : ∀ c ∈ blanks, isBlank c = true) :
    afterExponent? (exponent ++ blanks) = some blanks := by
  rcases h with rfl | ⟨mark, sign, digits, isMark, isSign, isDigits, nonempty, rfl⟩
  · cases blanks with
    | nil => rfl
    | cons c blanks =>
      have other : isExponentMark c = false := by
        have blank := isBlanks c List.mem_cons_self
        simp only [isBlank, Bool.or_eq_true, beq_iff_eq] at blank
        rcases blank with rfl | rfl <;> decide
      rw [List.nil_append, Literal.afterExponent?, if_neg (by simp [other])]
  · have ends := (endsMantissa_of_blanks isBlanks).endsDigits
    rw [List.cons_append, List.append_assoc, Literal.afterExponent?, if_pos isMark]
    dsimp only
    rw [splitSign_append isSign (isDigits.unsigned nonempty blanks), isDigits.takeWhile_append ends,
      isDigits.dropWhile_append ends, if_neg (by simpa using nonempty)]

/-- An exponent, and blanks behind it, go on a mantissa. -/
theorem IsExponentPart.endsMantissa {exponent blanks : List Char} (h : IsExponentPart exponent)
    (isBlanks : ∀ c ∈ blanks, isBlank c = true) : EndsMantissa (exponent ++ blanks) := by
  rcases h with rfl | ⟨mark, sign, digits, isMark, _, _, _, rfl⟩
  · exact endsMantissa_of_blanks isBlanks
  · rintro c ⟨rfl⟩
    simp only [isExponentMark, Bool.or_eq_true, beq_iff_eq] at isMark
    rcases isMark with rfl | rfl <;> decide

/-! ## Unsigned literals -/

/-- A mantissa starts with what opens a literal. -/
theorem IsMantissa.exists_cons {mantissa : List Char} (h : IsMantissa mantissa) :
    ∃ c rest, mantissa = c :: rest ∧ opens c = true := by
  rcases h with ⟨digits, nonempty⟩ | ⟨whole, part, digits, _, _, rfl⟩
  · obtain ⟨c, rest, rfl⟩ := List.exists_cons_of_ne_nil nonempty
    exact ⟨c, rest, rfl, by simp [opens, digits c List.mem_cons_self]⟩
  · cases whole with
    | nil => exact ⟨'.', part, rfl, by decide⟩
    | cons c rest =>
      exact ⟨c, rest ++ '.' :: part, rfl, by simp [opens, digits c List.mem_cons_self]⟩

/-- An unsigned literal starts with what opens a literal. -/
theorem IsUnsigned.exists_cons {body : List Char} (h : IsUnsigned body) :
    ∃ c rest, body = c :: rest ∧ opens c = true := by
  obtain ⟨mantissa, exponent, isMantissa, _, rfl⟩ := h
  obtain ⟨c, rest, rfl, first⟩ := isMantissa.exists_cons
  exact ⟨c, rest ++ exponent, rfl, first⟩

/-- An unsigned literal has no sign in front of it. -/
theorem IsUnsigned.unsigned {body : List Char} (h : IsUnsigned body) (rest : List Char) (c : Char)
    (head : (body ++ rest).head? = some c) : isSign c = false := by
  obtain ⟨first, more, rfl, opens⟩ := h.exists_cons
  obtain rfl : first = c := Option.some.inj head
  exact isSign_of_opens opens

/-! ## Blanks behind a literal -/

/-- A sign is no blank. -/
theorem isBlank_of_isSign {c : Char} (h : isSign c = true) : isBlank c = false := by
  simp only [isSign, Bool.or_eq_true, beq_iff_eq] at h
  rcases h with rfl | rfl <;> decide

/-- An exponent mark is no blank. -/
theorem isBlank_of_isExponentMark {c : Char} (h : isExponentMark c = true) : isBlank c = false := by
  simp only [isExponentMark, Bool.or_eq_true, beq_iff_eq] at h
  rcases h with rfl | rfl <;> decide

/-- There is no blank among digits. -/
theorem IsDigits.isBlank {digits : List Char} (h : IsDigits digits) :
    ∀ c ∈ digits, isBlank c = false :=
  fun c member => isBlank_of_opens (by simp [opens, h c member])

/-- There is no blank in a sign. -/
theorem IsSignPart.isBlank {sign : List Char} (h : IsSignPart sign) :
    ∀ c ∈ sign, isBlank c = false := by
  rcases h with rfl | ⟨c, isSign, rfl⟩
  · simp
  · simpa using isBlank_of_isSign isSign

/-- There is no blank in a mantissa. -/
theorem IsMantissa.isBlank {mantissa : List Char} (h : IsMantissa mantissa) :
    ∀ c ∈ mantissa, isBlank c = false := by
  rcases h with ⟨digits, _⟩ | ⟨whole, part, digits, digits', _, rfl⟩
  · exact digits.isBlank
  · intro c member
    rcases List.mem_append.mp member with inside | member
    · exact digits.isBlank c inside
    · rcases List.mem_cons.mp member with rfl | inside
      · decide
      · exact digits'.isBlank c inside

/-- There is no blank in an exponent. -/
theorem IsExponentPart.isBlank {exponent : List Char} (h : IsExponentPart exponent) :
    ∀ c ∈ exponent, isBlank c = false := by
  rcases h with rfl | ⟨mark, sign, digits, isMark, isSign, isDigits, _, rfl⟩
  · simp
  · intro c member
    rcases List.mem_cons.mp member with rfl | member
    · exact isBlank_of_isExponentMark isMark
    · rcases List.mem_append.mp member with inside | inside
      · exact isSign.isBlank c inside
      · exact isDigits.isBlank c inside

/-- There is no blank in an unsigned literal. -/
theorem IsUnsigned.isBlank {body : List Char} (h : IsUnsigned body) :
    ∀ c ∈ body, isBlank c = false := by
  obtain ⟨mantissa, exponent, isMantissa, isExponent, rfl⟩ := h
  intro c member
  rcases List.mem_append.mp member with inside | inside
  · exact isMantissa.isBlank c inside
  · exact isExponent.isBlank c inside

/-- Blanks behind a text without blanks are trimmed, and nothing else is. -/
theorem trimEnd_append {solid blanks : List Char} (h : ∀ c ∈ solid, isBlank c = false)
    (isBlanks : ∀ c ∈ blanks, isBlank c = true) : trimEnd (solid ++ blanks) = solid := by
  have stays : solid.reverse.dropWhile isBlank = solid.reverse := by
    cases reversed : solid.reverse with
    | nil => rfl
    | cons c rest =>
      have member : c ∈ solid := List.mem_reverse.mp (reversed ▸ List.mem_cons_self)
      exact List.dropWhile_cons_of_neg (by simp [h c member])
  rw [trimEnd, List.reverse_append, List.dropWhile_append_of_pos, stays, List.reverse_reverse]
  exact fun c member => isBlanks c (List.mem_reverse.mp member)

/-! ## Values -/

/-- What starts with a mantissa is read as a decimal if an exponent follows. -/
theorem isSome_ofChars? {text rest : List Char} (h : afterDigits? text = some rest) :
    (Decimal.ofChars? text).isSome = (Decimal.exponent? rest).isSome := by
  rw [afterDigits?_eq] at h
  rw [Decimal.ofChars?]
  split at h
  · cases h
  · rename_i found
    cases h
    dsimp only
    rw [if_neg found]
    cases Decimal.exponent? (Decimal.fraction (text.dropWhile isDigit)).2 <;> rfl

/-- Every exponent of the grammar is read. -/
theorem IsExponentPart.isSome_exponent? {exponent : List Char} (h : IsExponentPart exponent) :
    (Decimal.exponent? exponent).isSome = true := by
  rcases h with rfl | ⟨mark, sign, digits, isMark, isSign, isDigits, nonempty, rfl⟩
  · rfl
  · have unsigned := isDigits.unsigned nonempty []
    rw [List.append_nil] at unsigned
    have all : digits.all isDigit = true := List.all_eq_true.mpr isDigits
    rw [Decimal.exponent?]
    dsimp only
    rw [splitSign_append isSign unsigned, isMark, all]
    simp [nonempty]

/-- Every unsigned literal is read as a decimal. -/
theorem IsUnsigned.isSome_ofChars? {body : List Char} (h : IsUnsigned body) :
    (Decimal.ofChars? body).isSome = true := by
  obtain ⟨mantissa, exponent, isMantissa, isExponent, rfl⟩ := h
  have ends : EndsMantissa (exponent ++ []) := isExponent.endsMantissa (by simp)
  rw [List.append_nil] at ends
  rw [Literal.isSome_ofChars? (isMantissa.afterDigits? ends), isExponent.isSome_exponent?]

/-- What is a decimal behind its sign is read as a double. -/
theorem isSome_read? {text : List Char}
    (h : (Decimal.ofChars? (splitSign text).2).isSome = true ∨
      FloatText.isInfinityName (splitSign text).2 = true ∨
      FloatText.isNanName (splitSign text).2 = true) :
    (FloatText.read? text).isSome = true := by
  rw [FloatText.read?]
  dsimp only
  generalize Decimal.ofChars? (splitSign text).2 = decimal? at h ⊢
  cases decimal? with
  | some decimal => rfl
  | none =>
    dsimp only
    split
    · rfl
    · rename_i finite
      rw [if_pos (by simpa [finite] using h)]
      rfl

/-! ## The grammar -/

/-- A text is scanned as a literal if and only if it falls into the parts of one. -/
theorem isNumeric_iff_isNumeral (text : List Char) : isNumeric text = true ↔ IsNumeral text := by
  constructor
  · intro h
    rw [isNumeric] at h
    split at h
    · cases h
    · rename_i rest digits
      split at h
      · cases h
      · rename_i blanks scanned
        obtain ⟨sign, isSign, split⟩ := exists_signPart text
        obtain ⟨mantissa, isMantissa, front⟩ := exists_mantissa digits
        obtain ⟨exponent, isExponent, back⟩ := exists_exponentPart scanned
        refine ⟨sign, mantissa ++ exponent, blanks, isSign,
          ⟨mantissa, exponent, isMantissa, isExponent, rfl⟩, List.all_eq_true.mp h, ?_⟩
        rw [split, front, back, List.append_assoc, List.append_assoc]
  · rintro ⟨sign, body, blanks, isSign, isUnsigned, isBlanks, rfl⟩
    have unsigned := isUnsigned.unsigned blanks
    obtain ⟨mantissa, exponent, isMantissa, isExponent, rfl⟩ := isUnsigned
    rw [isNumeric, List.append_assoc, splitSign_append isSign unsigned, List.append_assoc,
      isMantissa.afterDigits? (isExponent.endsMantissa isBlanks)]
    dsimp only
    rw [isExponent.afterExponent? isBlanks]
    exact List.all_eq_true.mpr isBlanks

/-- A text has a value if and only if it falls into the parts of a literal. -/
theorem isSome_value?_iff (text : List Char) : (value? text).isSome = true ↔ IsNumeral text := by
  rw [← isNumeric_iff_isNumeral, value?]
  constructor
  · intro h
    by_contra refused
    rw [if_neg refused] at h
    cases h
  · intro h
    rw [if_pos h]
    obtain ⟨sign, body, blanks, isSign, isUnsigned, isBlanks, rfl⟩ :=
      (isNumeric_iff_isNumeral text).mp h
    have solid : ∀ c ∈ sign ++ body, isBlank c = false := fun c member =>
      (List.mem_append.mp member).elim (isSign.isBlank c) (isUnsigned.isBlank c)
    have unsigned := isUnsigned.unsigned []
    rw [List.append_nil] at unsigned
    rw [trimEnd_append solid isBlanks]
    refine isSome_read? (Or.inl ?_)
    rw [splitSign_append isSign unsigned]
    exact isUnsigned.isSome_ofChars?

/-- No literal goes on with a letter behind its sign. -/
theorem not_isNumeral_of_head {text rest : List Char} {c : Char}
    (split : (splitSign text).2 = c :: rest) (letter : opens c = false) : ¬ IsNumeral text := by
  rintro ⟨sign, body, blanks, isSign, isUnsigned, _, rfl⟩
  have unsigned := isUnsigned.unsigned blanks
  rw [List.append_assoc, splitSign_append isSign unsigned] at split
  obtain ⟨first, more, rfl, opens⟩ := isUnsigned.exists_cons
  obtain ⟨rfl, _⟩ := List.cons.inj split
  rw [letter] at opens
  cases opens

/-- A name that is a word in other letters starts with no digit and no point, if the word does not. -/
theorem exists_cons_of_toLower {text word : List Char} {first : Char}
    (h : (text.map Char.toLower == first :: word) = true) (letter : opens first = false) :
    ∃ c rest, text = c :: rest ∧ opens c = false := by
  cases text with
  | nil => cases h
  | cons c rest =>
    refine ⟨c, rest, rfl, Bool.eq_false_iff.mpr fun first => ?_⟩
    have same := eq_of_beq h
    rw [List.map_cons, toLower_of_opens first] at same
    rw [(List.cons.inj same).1, letter] at first
    cases first

/-- The names of infinity and of what is no number are no literals, with and without a sign. -/
theorem not_isNumeral_of_name {text : List Char}
    (h : FloatText.isInfinityName (splitSign text).2 = true ∨
      FloatText.isNanName (splitSign text).2 = true) : ¬ IsNumeral text := by
  have starts : ∃ c rest, (splitSign text).2 = c :: rest ∧ opens c = false := by
    rcases h with infinite | nan
    · rw [FloatText.isInfinityName, Bool.or_eq_true] at infinite
      rcases infinite with short | long
      · exact exists_cons_of_toLower short (by decide)
      · exact exists_cons_of_toLower long (by decide)
    · exact exists_cons_of_toLower nan (by decide)
  obtain ⟨c, rest, split, letter⟩ := starts
  exact not_isNumeral_of_head split letter

/-- A text is a literal if and only if it is an optional sign, digits with an optional point, an
optional exponent, and blanks.  Exactly the literals have a value.  Names of infinity and of what is
no number are read as doubles too, but they are no literals and have no value. -/
theorem literals_are_numerals (text : List Char) :
    (isNumeric text = true ↔ IsNumeral text) ∧
      ((value? text).isSome = true ↔ isNumeric text = true) ∧
      (FloatText.isInfinityName (splitSign text).2 = true ∨
        FloatText.isNanName (splitSign text).2 = true →
          (FloatText.read? text).isSome = true ∧ value? text = none) := by
  refine ⟨isNumeric_iff_isNumeral text, ?_, fun named => ⟨isSome_read? (Or.inr named), ?_⟩⟩
  · rw [isNumeric_iff_isNumeral, isSome_value?_iff]
  · rw [← Option.not_isSome_iff_eq_none, isSome_value?_iff]
    exact not_isNumeral_of_name named

/-- Negative infinity can be read, but it is no literal. -/
theorem minus_infinity_is_no_literal :
    FloatText.isInfinityName (splitSign ['-', 'I', 'n', 'f']).2 = true ∧
      (FloatText.read? ['-', 'I', 'n', 'f']).isSome = true ∧
      value? ['-', 'I', 'n', 'f'] = none :=
  ⟨by decide, (literals_are_numerals ['-', 'I', 'n', 'f']).2.2 (Or.inl (by decide))⟩

/-- A mantissa may end or begin with its point, and a sign, an exponent and blanks may stand around
it; a point alone, an exponent without digits and a name are refused. -/
example : (["3.", "-.5", "2.5E+10 \t"].all fun text => isNumeric text.toList) = true ∧
    ([".", "1E+", "1.2.3", "inf", "1 2"].any fun text => isNumeric text.toList) = false := by
  decide +kernel

end Literal

end TapeCalc
