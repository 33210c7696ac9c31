import TapeCalc.Program.Basic
import TapeCalc.Decimal.Notation

/-!
# Listings

A listing shows a tape instruction by instruction, with the value in place of the index
where a constant is loaded.  It shows every tape, also one that would not run: an index
beyond the pool, a missing operand and a word without meaning each have their own form.

Main definitions:

- {lit}`ListingEntry.ofWords`: the entries of a tape.
- {lit}`Program.listing`: the text of a program.
-/

namespace TapeCalc

/-- One entry of a listing. -/
inductive ListingEntry where
  /-- An instruction without operand. -/
  | instruction (opcode : Opcode)
  /-- A constant is loaded. -/
  | constant (value : Float)
  /-- A constant is loaded that the pool does not have. -/
  | outOfRange (index : Word)
  /-- A constant is loaded, and the tape ends before its index. -/
  | missingOperand
  /-- The word stands for no instruction. -/
  | undefined (word : Word)

namespace ListingEntry

/-- The entries of a tape, read with a pool. -/
def ofWords (constants : List Float) : List Word → List ListingEntry
  | [] => []
  | word :: rest =>
    match Opcode.ofWord? word with
    | none => undefined word :: ofWords constants rest
    | some .loadConst =>
      match rest with
      | [] => [missingOperand]
      | index :: rest =>
        match constants[index.toNat]? with
        | some value => constant value :: ofWords constants rest
        | none => outOfRange index :: ofWords constants rest
    | some opcode => instruction opcode :: ofWords constants rest

/-- The text of an entry. -/
def text : ListingEntry → String
  | instruction opcode => opcode.name
  | constant value => Opcode.loadConst.name ++ "(" ++ plainText value ++ ")"
  | outOfRange index => Opcode.loadConst.name ++ "(#" ++ toString index.toNat ++ ")"
  | missingOperand => Opcode.loadConst.name ++ "(?)"
  | undefined word => "?" ++ toString word.toNat

end ListingEntry

namespace Program

/-- The entries of a program's tape. -/
def entries (program : Program) : List ListingEntry :=
  ListingEntry.ofWords program.constants program.words

/-- The entries of a program with one space between them. -/
def listing (program : Program) : String :=
  " ".intercalate (program.entries.map ListingEntry.text)

end Program

end TapeCalc
