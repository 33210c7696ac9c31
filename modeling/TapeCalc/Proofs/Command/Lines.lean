import Mathlib.Data.List.Basic
import TapeCalc.Command.Lines

/-!
# Files put together from lines

A line holds no newline, and there is no carriage return at its end, because that would belong to
the line end behind it.  A file that is put together from such lines is split into the same lines
again, whichever line ends stand between them.  What stands behind the last line end is a line too
unless it is empty.

Lines are bytes, and some of them are the bytes of a text.

Main definitions:

- {lit}`LineEnd` and {lit}`fileOf`: files put together from lines.
- {lit}`IsLine`: bytes that can be told from the line end behind them.

Main results:

- Theorem {lit}`splitLines_fileOf`: a file is split into the lines it is put together from.
- Theorems {lit}`decodeLine_bytesOf` and {lit}`isLine_bytesOf`: the bytes of a text.
-/

namespace TapeCalc

/-! ## Lines of bytes -/

/-- What stands behind a line. -/
inductive LineEnd where
  | newline
  | returnNewline
deriving DecidableEq, Inhabited

/-- The bytes of a line end. -/
def LineEnd.bytes : LineEnd → List UInt8
  | newline => [TapeCalc.newline]
  | returnNewline => [carriageReturn, TapeCalc.newline]

/-- The bytes of a file: lines with their ends, and what follows the last line end. -/
def fileOf (lines : List (List UInt8 × LineEnd)) (last : List UInt8) : List UInt8 :=
  lines.flatMap (fun line => line.1 ++ line.2.bytes) ++ last

/-- Bytes without a newline and without a carriage return at their end. -/
def IsLine (line : List UInt8) : Prop :=
  newline ∉ line ∧ line.getLast? ≠ some carriageReturn

instance (line : List UInt8) : Decidable (IsLine line) := inferInstanceAs (Decidable (_ ∧ _))

/-- There is no carriage return to drop at the end of a line. -/
theorem dropReturn_reverse {line : List UInt8} (h : line.getLast? ≠ some carriageReturn) :
    dropReturn line.reverse = line.reverse := by
  rw [← List.head?_reverse] at h
  cases bytes : line.reverse with
  | nil => rfl
  | cons byte rest =>
    rw [bytes] at h
    exact if_neg fun same => h (congrArg some same)

/-- Bytes that are no newlines are taken into the current line. -/
theorem splitLinesFrom_append (current : List UInt8) {line : List UInt8} (rest : List UInt8)
    (h : newline ∉ line) :
    splitLinesFrom current (line ++ rest) = splitLinesFrom (line.reverse ++ current) rest := by
  induction line generalizing current with
  | nil => rfl
  | cons byte line ih =>
    have other := List.ne_of_not_mem_cons h
    have others := List.not_mem_of_not_mem_cons h
    rw [List.cons_append, splitLinesFrom, if_neg (Ne.symm other), ih (byte :: current) others,
      List.reverse_cons, List.append_assoc, List.singleton_append]

/-- A line with its end is the first one of a file. -/
theorem splitLines_append {line : List UInt8} (isLine : IsLine line) (lineEnd : LineEnd)
    (rest : List UInt8) :
    splitLines (line ++ lineEnd.bytes ++ rest) = line :: splitLines rest := by
  obtain ⟨whole, ends⟩ := isLine
  rw [splitLines, List.append_assoc, splitLinesFrom_append [] _ whole, List.append_nil]
  cases lineEnd with
  | newline =>
    change (dropReturn line.reverse).reverse :: splitLines rest = _
    rw [dropReturn_reverse ends, List.reverse_reverse]
  | returnNewline =>
    change (dropReturn (carriageReturn :: line.reverse)).reverse :: splitLines rest = _
    rw [dropReturn, if_pos rfl, List.reverse_reverse]

/-- What stands behind the last line end is a line unless it is empty. -/
theorem splitLines_last {last : List UInt8} (whole : newline ∉ last) :
    splitLines last = if last = [] then [] else [last] := by
  have split := splitLinesFrom_append [] [] whole
  rw [List.append_nil, List.append_nil] at split
  rw [splitLines, split, splitLinesFrom, List.reverse_reverse]
  simp

/-- A file is split into the lines that it is put together from. -/
theorem splitLines_fileOf {lines : List (List UInt8 × LineEnd)} {last : List UInt8}
    (isLine : ∀ line ∈ lines, IsLine line.1) (whole : newline ∉ last) :
    splitLines (fileOf lines last) =
      lines.map Prod.fst ++ if last = [] then [] else [last] := by
  induction lines with
  | nil => exact splitLines_last whole
  | cons line lines ih =>
    obtain ⟨first, others⟩ := List.forall_mem_cons.mp isLine
    have rest := ih others
    rw [fileOf] at rest ⊢
    rw [List.flatMap_cons, List.append_assoc, splitLines_append first, rest, List.map_cons,
      List.cons_append]

/-! ## Lines of text -/

/-- The bytes of a text. -/
def bytesOf (text : String) : List UInt8 := text.toUTF8.data.toList

/-- A text is read back from its bytes. -/
theorem decodeLine_bytesOf (text : String) : decodeLine (bytesOf text) = some text :=
  dif_pos text.isValidUTF8

/-- The bytes of a text are those of its characters. -/
theorem bytesOf_eq (text : String) : bytesOf text = text.toList.flatMap String.utf8EncodeChar := by
  have encoded : text.toUTF8 = text.toList.utf8Encode := (String.utf8Encode_toList).symm
  rw [bytesOf, encoded, List.utf8Encode]
  simp

/-- A character is written as the byte with its number, or in bytes that stand for no character by
themselves. -/
theorem utf8EncodeChar_cases (c : Char) :
    (c.toNat < 128 ∧ String.utf8EncodeChar c = [UInt8.ofNat c.toNat]) ∨
      (128 ≤ c.toNat ∧ ∀ byte ∈ String.utf8EncodeChar c, 128 ≤ byte.toNat) := by
  have high (n places mark : Nat) (low : 128 ≤ mark) (fits : places + mark ≤ 256)
      (positive : 0 < places) : 128 ≤ (UInt8.ofNat (n % places + mark)).toNat := by
    have below := Nat.mod_lt n positive
    rw [UInt8.toNat_ofNat_of_lt' (show n % places + mark < 256 by omega)]
    omega
  have number : c.val.toNat = c.toNat := rfl
  by_cases small : c.toNat ≤ 127
  · refine Or.inl ⟨by omega, ?_⟩
    simp only [String.utf8EncodeChar, number, small, if_true]
  · refine Or.inr ⟨by omega, ?_⟩
    intro byte member
    simp only [String.utf8EncodeChar, number, if_neg small] at member
    split at member
    · simp only [List.mem_cons, List.not_mem_nil, or_false] at member
      rcases member with rfl | rfl <;> exact high _ _ _ (by decide) (by decide) (by decide)
    · split at member
      · simp only [List.mem_cons, List.not_mem_nil, or_false] at member
        rcases member with rfl | rfl | rfl <;> exact high _ _ _ (by decide) (by decide) (by decide)
      · simp only [List.mem_cons, List.not_mem_nil, or_false] at member
        rcases member with rfl | rfl | rfl | rfl <;>
          exact high _ _ _ (by decide) (by decide) (by decide)

/-- A byte that stands for a character by itself is written for this character only. -/
theorem mem_utf8EncodeChar_iff {c letter : Char} (small : letter.toNat < 128) :
    UInt8.ofNat letter.toNat ∈ String.utf8EncodeChar c ↔ c = letter := by
  have byte : (UInt8.ofNat letter.toNat).toNat = letter.toNat :=
    UInt8.toNat_ofNat_of_lt' (show letter.toNat < 256 by omega)
  rcases utf8EncodeChar_cases c with ⟨less, written⟩ | ⟨more, high⟩
  · have byte' : (UInt8.ofNat c.toNat).toNat = c.toNat :=
      UInt8.toNat_ofNat_of_lt' (show c.toNat < 256 by omega)
    rw [written, List.mem_singleton, ← UInt8.toNat_inj, byte, byte', eq_comm, Char.toNat_inj]
  · refine iff_of_false (fun member => ?_) ?_
    · have impossible := high _ member
      omega
    · rintro rfl
      omega

/-- The bytes of a text are a line if the text has no newline in it and no carriage return at its
end. -/
theorem isLine_bytesOf {text : String} :
    IsLine (bytesOf text) ↔ '\n' ∉ text.toList ∧ text.toList.getLast? ≠ some '\r' := by
  have newlines : newline ∈ bytesOf text ↔ '\n' ∈ text.toList := by
    rw [bytesOf_eq, List.mem_flatMap]
    constructor
    · rintro ⟨c, member, written⟩
      exact (@mem_utf8EncodeChar_iff c '\n' (by decide)).mp written ▸ member
    · intro member
      exact ⟨'\n', member, (mem_utf8EncodeChar_iff (by decide)).mpr rfl⟩
  have returns : (bytesOf text).getLast? = some carriageReturn ↔
      text.toList.getLast? = some '\r' := by
    rw [bytesOf_eq]
    rcases List.eq_nil_or_concat text.toList with empty | ⟨front, c, last⟩
    · rw [empty]
      simp
    · rw [last, List.concat_eq_append, List.flatMap_append, List.flatMap_singleton,
        List.getLast?_append_of_ne_nil _ String.utf8EncodeChar_ne_nil, List.getLast?_concat,
        Option.some.injEq]
      constructor
      · intro ends
        exact (@mem_utf8EncodeChar_iff c '\r' (by decide)).mp (List.mem_of_getLast? ends)
      · rintro rfl
        rfl
  rw [IsLine, newlines, ne_eq, ne_eq, returns]

end TapeCalc
