import TapeCalc.Proofs.Compiler.Correctness
import TapeCalc.Proofs.Compiler.Limits
import TapeCalc.Proofs.Program.Listing

/-!
# A listing identifies a compiled program

A compiled program loads the values of its literals in the order of the text, and its pool holds
each of them once, in the order in which they are loaded first.  So the pool is determined by the
entries of the listing, and with the pool the words are as well.

Main definitions:

- {lit}`ListingEntry.value?`: the constant that an entry loads.

Main results:

- Theorem {lit}`ListingEntry.values_code`: the constants that a code loads.
- Theorem {lit}`Compiled.constants_eq_loaded`: the pool of a compiled program.
- Theorem {lit}`eq_of_listing_eq`: compiled programs with the same listing are the same.
-/

namespace TapeCalc

/-! ## Constants of a listing -/

namespace ListingEntry

variable {constants : List Float}

/-- The constant that an entry loads. -/
def value? : ListingEntry → Option Float
  | constant value => some value
  | _ => none

/-- An instruction without operand is an entry of its own. -/
theorem ofWords_word {opcode : Opcode} (plain : opcode ≠ .loadConst) (rest : List Word) :
    ofWords constants (opcode.word :: rest) = instruction opcode :: ofWords constants rest := by
  rw [ofWords.eq_def]
  simp only [Opcode.ofWord?_word]

/-- The instruction that loads a constant is one entry with the index. -/
theorem ofWords_constant {index : Nat} {value : Float} (small : index < UInt16.size)
    (found : constants[index]? = some value) (rest : List Word) :
    ofWords constants (Opcode.loadConst.word :: UInt16.ofNat index :: rest) =
      constant value :: ofWords constants rest := by
  have place : (UInt16.ofNat index).toNat = index := by
    rw [UInt16.toNat_ofNat', Nat.mod_eq_of_lt small]
  rw [ofWords, Opcode.ofWord?_word]
  simp only [place, found]

/-- An instruction without operand loads no constant. -/
theorem values_word {opcode : Opcode} (plain : opcode ≠ .loadConst) (rest : List Word) :
    (ofWords constants (opcode.word :: rest)).filterMap value? =
      (ofWords constants rest).filterMap value? := by
  rw [ofWords_word plain, List.filterMap_cons_none rfl]

/-- The code of an expression loads the values of its literals from left to right. -/
theorem values_code {literal : Nat → Float} (expr : Expr)
    (known : ∀ index ∈ expr.literals, index < UInt16.size ∧
      constants[index]? = some (literal index)) (rest : List Word) :
    (ofWords constants (expr.code ++ rest)).filterMap value? =
      expr.literals.map literal ++ (ofWords constants rest).filterMap value? := by
  induction expr generalizing rest with
  | literal index =>
    obtain ⟨small, found⟩ := known index (List.mem_singleton_self index)
    exact (congrArg _ (ofWords_constant small found rest)).trans (List.filterMap_cons_some rfl)
  | load slot => exact values_word (by simp) rest
  | pi => exact values_word (by simp) rest
  | group inner ih => exact ih known rest
  | signed sign operand ih =>
    cases sign with
    | plus => exact ih known rest
    | minus =>
      rw [Expr.code, List.append_assoc, ih known]
      exact congrArg _ (values_word (by simp) rest)
  | call op argument ih =>
    rw [Expr.code, List.append_assoc, ih known]
    exact congrArg _ (values_word (by simp) rest)
  | binary op left right ihLeft ihRight =>
    rw [Expr.code, List.append_assoc, List.append_assoc,
      ihLeft fun index member => known index (List.mem_append_left _ member),
      ihRight fun index member => known index (List.mem_append_right _ member),
      Expr.literals, List.map_append, List.append_assoc]
    exact congrArg _ (congrArg _ (values_word (by simp) rest))

end ListingEntry

/-! ## Compiled programs -/

namespace Compiled

variable {symbols : SymbolTable} {text : List Char} {limits : Limits} {lexemes : List Lexeme}
  {program : Program}

/-- The literals of the text have the values that the program has for them. -/
theorem literalValues_eq (h : Compiled symbols text limits lexemes program) :
    literalValues text lexemes =
      ((tokensOf lexemes).filterMap Token.index?).map (constant program) := by
  rw [literalValues, tokensOf, List.filterMap_map, List.map_filterMap]
  refine List.filterMap_congr fun lexeme member => ?_
  rcases lexeme with ⟨token, column⟩
  cases token with
  | constant index => exact (h.constants member rfl).1
  | _ => rfl

/-- The pool of a compiled program holds what the program loads, each value once and in the order
in which it is loaded first. -/
theorem constants_eq_loaded (h : Compiled symbols text limits lexemes program) :
    program.constants = (program.entries.filterMap ListingEntry.value?).eraseDups := by
  obtain ⟨expr, derives, _⟩ := h.fits
  have loaded := ListingEntry.values_code expr (fun index member => h.known derives member) []
  rw [List.append_nil, ListingEntry.ofWords, List.filterMap_nil, List.append_nil,
    derives.literals_eq, ← h.literalValues_eq, ← h.code expr derives] at loaded
  rw [h.constants_eq, Program.entries, loaded]

/-- The pool of a compiled program holds no value twice. -/
theorem nodup (h : Compiled symbols text limits lexemes program) : program.constants.Nodup := by
  obtain ⟨last, pool, yields⟩ := h.yields
  rw [Program.constants, pool]
  exact (keeps_of_yields yields).distinct.nodup

/-- Compiled programs with the same entries have the same words and the same constants. -/
theorem eq_of_entries_eq {symbols' : SymbolTable} {text' : List Char} {limits' : Limits}
    {lexemes' : List Lexeme} {program' : Program}
    (h : Compiled symbols text limits lexemes program)
    (h' : Compiled symbols' text' limits' lexemes' program')
    (same : program.entries = program'.entries) :
    program.words = program'.words ∧ program.constants = program'.constants := by
  have constants : program.constants = program'.constants := by
    rw [h.constants_eq_loaded, h'.constants_eq_loaded, same]
  refine ⟨ListingEntry.ofWords_injective h.nodup ?_, constants⟩
  rw [Program.entries, Program.entries, ← constants] at same
  exact same

end Compiled

/-- A program that a text has been compiled to comes from lexemes of the text. -/
theorem exists_compiled {text xName yName : String} {limits : Limits} {program : Program}
    (compiled : compile text xName yName limits = .ok program) :
    ∃ symbols lexemes, Compiled symbols text.toList limits lexemes program := by
  obtain ⟨symbols, bound⟩ := exists_ofNames_of_compile compiled
  have named := (SymbolTable.reachable_of_ofNames bound).spelling_ne_nil
  rw [compile_of_ofNames bound] at compiled
  exact ⟨symbols, compiled_of_ok named compiled⟩

/-- Compiled programs with the same listing have the same words and the same constants, whatever
texts, names and limits they have been compiled with. -/
theorem eq_of_listing_eq {text text' xName xName' yName yName' : String} {limits limits' : Limits}
    {program program' : Program} (compiled : compile text xName yName limits = .ok program)
    (compiled' : compile text' xName' yName' limits' = .ok program')
    (same : program.listing = program'.listing) :
    program.words = program'.words ∧ program.constants = program'.constants := by
  obtain ⟨symbols, lexemes, h⟩ := exists_compiled compiled
  obtain ⟨symbols', lexemes', h'⟩ := exists_compiled compiled'
  exact h.eq_of_entries_eq h' (Program.entries_eq_of_listing_eq same)

/-- The texts {lit}`x/2+3` and {lit}`+t / 2.0 + 3` have the listing
{lit}`VARX LOADCONST(2) DIV LOADCONST(3) ADD`, the second one with {lit}`t` as its name. -/
theorem listed_alike_under_other_names :
    ∃ program program', compile "x/2+3" "x" "y" .standard = .ok program ∧
      compile "+t / 2.0 + 3" "t" "u" ⟨7, 2, 1⟩ = .ok program' ∧
      program.listing = program'.listing ∧
      program.words = program'.words ∧ program.constants = program'.constants := by
  have shown : (compile "x/2+3" "x" "y" .standard).map Program.listing =
      .ok "VARX LOADCONST(2) DIV LOADCONST(3) ADD" := by decide +kernel
  have shown' : (compile "+t / 2.0 + 3" "t" "u" ⟨7, 2, 1⟩).map Program.listing =
      .ok "VARX LOADCONST(2) DIV LOADCONST(3) ADD" := by decide +kernel
  cases compiled : compile "x/2+3" "x" "y" .standard with
  | error fault =>
    rw [compiled] at shown
    cases shown
  | ok program =>
    cases compiled' : compile "+t / 2.0 + 3" "t" "u" ⟨7, 2, 1⟩ with
    | error fault =>
      rw [compiled'] at shown'
      cases shown'
    | ok program' =>
      rw [compiled] at shown
      rw [compiled'] at shown'
      have same : program.listing = program'.listing :=
        Except.ok.inj (shown.trans shown'.symm)
      exact ⟨program, program', rfl, rfl, same, eq_of_listing_eq compiled compiled' same⟩

end TapeCalc
