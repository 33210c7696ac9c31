import TapeCalc.Decimal.Notation
import TapeCalc.Proofs.Decimal.Shortest
import TapeCalc.Proofs.Literal.Value

/-!
# Written doubles read back

The text of a double in results and listings shows its sign and its digits, filled up with zeros
up to the point.  It is read as the same double, so no two doubles have the same text.

Main definitions:

- {lit}`isPlain`: the characters of names and numbers.

Main results:

- Theorem {lit}`Decimal.ofChars?_positional`: digits with a point are read by their value.
- Theorem {lit}`read?_plainText`: the text of a double is read as this double.
- Theorem {lit}`plainText_injective`: doubles with the same text are the same.
- Theorem {lit}`isPlain_of_mem_plainText`: the characters of these texts.
-/

namespace TapeCalc

/-! ## Digits -/

/-- The digits of a number stand for it. -/
theorem digitsValue_toDigits (n : Nat) : digitsValue (Nat.toDigits 10 n) = n :=
  Nat.ofDigitChars_toDigits (by decide) (by decide)

/-- Numbers with the same digits are the same. -/
theorem toDigits_injective : Function.Injective (Nat.toDigits 10) :=
  Function.LeftInverse.injective digitsValue_toDigits

/-- Zeros in front of digits do not count. -/
theorem digitsValue_zeros_append (count : Nat) (digits : List Char) :
    digitsValue (FloatText.zeros count ++ digits) = digitsValue digits := by
  change Nat.ofDigitChars 10 (List.replicate count '0' ++ digits) 0 = Nat.ofDigitChars 10 digits 0
  rw [Nat.ofDigitChars_append, Nat.ofDigitChars_replicate_zero, Nat.mul_zero]

/-- Zeros behind digits multiply what they stand for. -/
theorem digitsValue_append_zeros (count : Nat) (digits : List Char) :
    digitsValue (digits ++ FloatText.zeros count) = 10 ^ count * digitsValue digits := by
  change Nat.ofDigitChars 10 (digits ++ List.replicate count '0') 0 =
    10 ^ count * Nat.ofDigitChars 10 digits 0
  rw [Nat.ofDigitChars_append, Nat.ofDigitChars_replicate_zero]

/-- A run of digits. -/
def AllDigits (digits : List Char) : Prop := ∀ c ∈ digits, isDigit c = true

/-- The digits of a number are digits. -/
theorem allDigits_toDigits (n : Nat) : AllDigits (Nat.toDigits 10 n) :=
  fun _ member => Nat.isDigit_of_mem_toDigits (by decide) (by decide) member

/-- Zeros are digits. -/
theorem allDigits_zeros (count : Nat) : AllDigits (FloatText.zeros count) := by
  intro c member
  rw [List.eq_of_mem_replicate member]
  rfl

/-- One run of digits behind another is a run of digits. -/
theorem AllDigits.append {digits more : List Char} (h : AllDigits digits) (h' : AllDigits more) :
    AllDigits (digits ++ more) :=
  List.forall_mem_append.mpr ⟨h, h'⟩

/-! ## Digits with a point -/

namespace Decimal

/-- Digits without a point stand for a whole number. -/
theorem ofChars?_digits {digits : List Char} (all : AllDigits digits) (nonempty : digits ≠ []) :
    ofChars? digits = some ⟨digitsValue digits, 0⟩ := by
  have whole : digits.takeWhile isDigit = digits := List.takeWhile_eq_self_iff.mpr all
  have rest : digits.dropWhile isDigit = [] := List.dropWhile_eq_nil_iff.mpr all
  have shown : digits.isEmpty = false := by simpa using nonempty
  simp [ofChars?, whole, rest, fraction, shown, exponent?]

/-- Digits with a point among them stand for as many tenths as there are digits behind it. -/
theorem ofChars?_point {whole part : List Char} (allWhole : AllDigits whole)
    (allPart : AllDigits part) (nonempty : part ≠ []) :
    ofChars? (whole ++ '.' :: part) = some ⟨digitsValue (whole ++ part), -part.length⟩ := by
  have before : (whole ++ '.' :: part).takeWhile isDigit = whole := by
    rw [List.takeWhile_append_of_pos allWhole, List.takeWhile_cons_of_neg (by decide),
      List.append_nil]
  have behind : (whole ++ '.' :: part).dropWhile isDigit = '.' :: part := by
    rw [List.dropWhile_append_of_pos allWhole, List.dropWhile_cons_of_neg (by decide)]
  have digits : part.takeWhile isDigit = part := List.takeWhile_eq_self_iff.mpr allPart
  have rest : part.dropWhile isDigit = [] := List.dropWhile_eq_nil_iff.mpr allPart
  have shown : part.isEmpty = false := by simpa using nonempty
  simp [ofChars?, before, behind, fraction, digits, rest, shown, exponent?]

/-- Digits with the point after a number of them are read by the value they have there. -/
theorem ofChars?_positional {digits : List Char} (all : AllDigits digits) (nonempty : digits ≠ [])
    (point : Int) :
    ∃ decimal, ofChars? (FloatText.positional false digits point) = some decimal ∧
      Magnitude.ofDecimal decimal =
        Magnitude.ofDecimal ⟨digitsValue digits, point - digits.length⟩ := by
  rw [FloatText.positional]
  split
  · -- All digits stand behind the point, and zeros between them and it.
    have behind := (allDigits_zeros (-point).toNat).append all
    have value := (digitsValue_zeros_append 1 (FloatText.zeros (-point).toNat ++ digits)).trans
      (digitsValue_zeros_append _ _)
    refine ⟨_, ofChars?_point (allDigits_zeros 1) behind (by simp [nonempty]), congrArg _ ?_⟩
    refine (Decimal.mk.injEq _ _ _ _).mpr ⟨value, ?_⟩
    simp only [List.length_append, FloatText.zeros, List.length_replicate]
    omega
  · split
    · refine ⟨_, ofChars?_point (fun c member => all c (List.mem_of_mem_take member))
        (fun c member => all c (List.mem_of_mem_drop member)) ?_, congrArg _ ?_⟩
      · rw [Ne, List.drop_eq_nil_iff]
        omega
      · rw [List.take_append_drop, Decimal.mk.injEq, List.length_drop]
        exact ⟨rfl, by omega⟩
    · -- The digits end in front of the point, and zeros lead up to it.
      have before := all.append (allDigits_zeros (point.toNat - digits.length))
      rw [if_neg (by decide), List.append_nil]
      refine ⟨_, ofChars?_digits before (by simp [nonempty]), ?_⟩
      rw [digitsValue_append_zeros, Magnitude.ofDecimal_pow_mul]
      congr 2
      omega

/-- The text of a finite magnitude is read as this magnitude. -/
theorem ofChars?_ofMagnitude {magnitude : Nat} (finite : magnitude < Magnitude.infinity) :
    ∃ decimal, ofChars? (FloatText.ofMagnitude .plain magnitude) = some decimal ∧
      Magnitude.ofDecimal decimal = magnitude := by
  rw [FloatText.ofMagnitude]
  split
  · rename_i zero
    rw [zero]
    exact ⟨⟨0, 0⟩, rfl, rfl⟩
  · rename_i nonzero
    have digits := allDigits_toDigits (shortest magnitude).coefficient
    obtain ⟨decimal, read, value⟩ := ofChars?_positional digits Nat.toDigits_ne_nil
      ((shortest magnitude).exponent + (Nat.toDigits 10 (shortest magnitude).coefficient).length)
    rw [digitsValue_toDigits, Int.add_sub_cancel] at value
    exact ⟨decimal, read,
      value.trans (Magnitude.ofDecimal_shortest (Nat.pos_of_ne_zero nonzero) finite)⟩

end Decimal

/-! ## Texts of doubles -/

namespace FloatText

/-- Digits with a point consist of digits and the point. -/
theorem opens_of_mem_positional {digits : List Char} (all : AllDigits digits) {point : Int}
    {c : Char} (member : c ∈ positional false digits point) : Literal.opens c = true := by
  have digit {c : Char} (h : isDigit c = true) : Literal.opens c = true := by
    rw [Literal.opens, h, Bool.true_or]
  have zero {count : Nat} (h : c ∈ zeros count) : Literal.opens c = true :=
    digit (allDigits_zeros count c h)
  rw [positional] at member
  split at member
  · rcases List.mem_cons.mp member with rfl | member
    · rfl
    · rcases List.mem_cons.mp member with rfl | member
      · rfl
      · exact (List.mem_append.mp member).elim zero fun shown => digit (all c shown)
  · split at member
    · rcases List.mem_append.mp member with shown | member
      · exact digit (all c (List.mem_of_mem_take shown))
      · rcases List.mem_cons.mp member with rfl | shown
        · rfl
        · exact digit (all c (List.mem_of_mem_drop shown))
    · rw [if_neg (by decide), List.append_nil] at member
      exact (List.mem_append.mp member).elim (fun shown => digit (all c shown)) zero

/-- The text of a finite magnitude consists of digits and the point. -/
theorem opens_of_mem_ofMagnitude {magnitude : Nat} {c : Char}
    (member : c ∈ ofMagnitude .plain magnitude) : Literal.opens c = true := by
  rw [ofMagnitude] at member
  split at member
  · exact opens_of_mem_positional (allDigits_zeros 1) member
  · exact opens_of_mem_positional (allDigits_toDigits _) member

/-- The text of a finite magnitude starts with a digit or a point. -/
theorem exists_ofMagnitude_eq_cons {magnitude : Nat} (finite : magnitude < Magnitude.infinity) :
    ∃ c rest, ofMagnitude .plain magnitude = c :: rest ∧ Literal.opens c = true := by
  obtain ⟨decimal, read, _⟩ := Decimal.ofChars?_ofMagnitude finite
  cases text : ofMagnitude .plain magnitude with
  | nil =>
    rw [text] at read
    cases read
  | cons c rest =>
    have member : c ∈ ofMagnitude .plain magnitude := text ▸ List.mem_cons_self
    exact ⟨c, rest, rfl, opens_of_mem_ofMagnitude member⟩

/-- A sign in front of a text that opens with none is taken off again. -/
theorem splitSign_signText (negative : Bool) {c : Char} (rest : List Char)
    (unsigned : isSign c = false) :
    splitSign (signText negative ++ c :: rest) = (negative, c :: rest) := by
  cases negative with
  | false =>
    change splitSign (c :: rest) = (false, c :: rest)
    rw [splitSign, if_neg (Bool.eq_false_iff.mp unsigned)]
  | true => rfl

/-- The text of a finite double is read as this double. -/
theorem read?_finite (negative : Bool) {magnitude : Nat} (finite : magnitude < Magnitude.infinity) :
    read? (signText negative ++ ofMagnitude .plain magnitude) =
      some (ofSignMagnitude negative magnitude) := by
  obtain ⟨decimal, read, value⟩ := Decimal.ofChars?_ofMagnitude finite
  obtain ⟨c, rest, text, opens⟩ := exists_ofMagnitude_eq_cons finite
  rw [text] at read ⊢
  rw [read?, splitSign_signText negative rest (Literal.isSign_of_opens opens)]
  simp only [read, value]

end FloatText

/-- The text of a double is read as this double. -/
theorem read?_plainText (x : Float) : FloatText.read? (plainText x).toList = some x := by
  have described := FloatClass.describes_of x
  rw [plainText, FloatText.write, String.toList_ofList]
  generalize FloatClass.of x = shown at described
  cases described with
  | nan =>
    have read : Float.ofBits 0x7FF8000000000000 = .nan := ofBits_eq_nan (by decide)
    exact congrArg some read
  | infinite negative => cases negative <;> rfl
  | finite negative finite => exact FloatText.read?_finite negative finite

/-- Doubles with the same text are the same. -/
theorem plainText_injective : Function.Injective plainText := by
  intro x y same
  have read := read?_plainText x
  rw [same, read?_plainText y] at read
  exact (Option.some.inj read).symm

/-- A character of a name or a number: a letter, a digit, a point or a minus sign. -/
def isPlain (c : Char) : Bool := c.isAlphanum || c == '.' || c == '-'

/-- Digits and points are such characters. -/
theorem isPlain_of_opens {c : Char} (h : Literal.opens c = true) : isPlain c = true := by
  rw [Literal.opens, Bool.or_eq_true, beq_iff_eq] at h
  rcases h with digit | rfl
  · have digit : c.isDigit = true := digit
    simp [isPlain, Char.isAlphanum, digit]
  · rfl

/-- The text of a double consists of such characters. -/
theorem isPlain_of_mem_plainText {x : Float} {c : Char} (member : c ∈ (plainText x).toList) :
    isPlain c = true := by
  have letter {name : List Char} (letters : name.all isPlain = true) (h : c ∈ name) :
      isPlain c = true := List.all_eq_true.mp letters c h
  have sign {negative : Bool} (h : c ∈ FloatText.signText negative) : isPlain c = true := by
    cases negative with
    | false => cases h
    | true => exact letter rfl h
  rw [plainText, FloatText.write, String.toList_ofList] at member
  generalize FloatClass.of x = shown at member
  cases shown with
  | nan => exact letter rfl member
  | infinite negative => exact (List.mem_append.mp member).elim sign (letter rfl)
  | finite negative magnitude =>
    exact (List.mem_append.mp member).elim sign fun h =>
      isPlain_of_opens (FloatText.opens_of_mem_ofMagnitude h)

end TapeCalc
