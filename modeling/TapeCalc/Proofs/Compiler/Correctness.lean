import TapeCalc.Proofs.Compiler.Acceptance
import TapeCalc.Proofs.Machine.Evaluation

/-!
# Compiled programs evaluate their expressions

A program that a text has been compiled to does what its expression says.  Whatever tree
the grammar gives to the lexemes of the text, running the program leads to the value of
the tree or to the first fault that evaluating the tree meets.

Main definitions:

- {lit}`Valuation.of`: the values of the variables and of the literals.

Main results:

- Theorem {lit}`Compiled.evaluate_eq`: a program evaluates to what its expression
  evaluates to.
- Theorem {lit}`evaluate_of_compile`: the same for the text of a compilation.
-/

namespace TapeCalc

/-- The valuation with given values for the variables and for the literals. -/
def Valuation.of (x y : Float) (literal : Nat → Float) : Valuation :=
  { slot := fun slot =>
      match slot with
      | .x => x
      | .y => y
    literal }

namespace Compiled

variable {symbols : SymbolTable} {text : List Char} {limits : Limits} {lexemes : List Lexeme}
  {program : Program}

/-- The value at an index of the pool. -/
def constant (program : Program) (index : Nat) : Float := (program.constants[index]?).getD 0

/-- Each literal has its own value in the pool. -/
theorem constants (h : Compiled symbols text limits lexemes program) {lexeme : Lexeme}
    (member : lexeme ∈ lexemes) {index : Nat} (token : lexeme.token = .constant index) :
    lexeme.value? text = some (constant program index) ∧
      program.constants[index]? = some (constant program index) := by
  obtain ⟨last, pool, yields⟩ := h.yields
  obtain ⟨value, read, placed⟩ := (keeps_of_yields yields).literal lexeme member index token
  have known : program.constants[index]? = some value := by
    rw [Program.constants, pool]
    exact placed
  rw [constant, known]
  exact ⟨read, rfl⟩

/-- Each literal of the expression has an index that is a word, and its value stands there. -/
theorem known (h : Compiled symbols text limits lexemes program) {expr : Expr}
    (derives : Derives .expression (tokensOf lexemes) expr) {index : Nat}
    (member : index ∈ expr.literals) :
    index < UInt16.size ∧ program.constants[index]? = some (constant program index) := by
  have token := (derives.mem_literals_iff index).mp member
  obtain ⟨lexeme, inside, shown⟩ := List.mem_map.mp token
  exact ⟨h.indices index token, (h.constants inside shown).2⟩

/-- Running a compiled program leads to what evaluating its expression leads to. -/
theorem evaluate_eq (h : Compiled symbols text limits lexemes program) {expr : Expr}
    (derives : Derives .expression (tokensOf lexemes) expr) (x y : Float) :
    program.evaluate x y = expr.evaluate (.of x y (constant program)) := by
  refine Program.evaluate_eq_of_code x y (h.code expr derives) ⟨?_, ?_, ?_⟩
  · intro slot
    cases slot <;> rfl
  · intro index member
    exact (h.known derives member).1
  · intro index member
    exact (h.known derives member).2

end Compiled

/-- A program that a text has been compiled to evaluates, value for value and fault for fault, to
what the expression evaluates to that the lexemes of the text form, with the value each literal
has in the text. -/
theorem evaluate_of_compile {text xName yName : String} {limits : Limits} {program : Program}
    (compiled : compile text xName yName limits = .ok program) :
    ∃ symbols lexemes literal, SymbolTable.ofNames xName yName = .ok symbols ∧
      lex symbols text.toList = .ok lexemes ∧
      (∀ lexeme ∈ lexemes, ∀ index, lexeme.token = .constant index →
        lexeme.value? text.toList = some (literal index)) ∧
      (∃ expr, Derives .expression (tokensOf lexemes) expr) ∧
      ∀ expr, Derives .expression (tokensOf lexemes) expr →
        ∀ x y, program.evaluate x y = expr.evaluate (.of x y literal) := by
  cases bound : SymbolTable.ofNames xName yName with
  | error fault =>
    rw [compile, compilation, bound] at compiled
    cases compiled
  | ok symbols =>
    rw [compile_of_ofNames bound] at compiled
    have named := (SymbolTable.reachable_of_ofNames bound).spelling_ne_nil
    obtain ⟨lexemes, result⟩ := compiled_of_ok named compiled
    obtain ⟨last, _, yields⟩ := result.yields
    obtain ⟨expr, derives, _⟩ := result.fits
    refine ⟨symbols, lexemes, Compiled.constant program, rfl, ?_, ?_, ⟨expr, derives⟩, ?_⟩
    · exact ((exists_yields_iff named limits.maxConstants).mp ⟨last, yields⟩).1
    · intro lexeme member index token
      exact (result.constants member token).1
    · intro expr derives x y
      exact result.evaluate_eq derives x y

/-- In {lit}`-2^x` the sign binds tighter than the power, and the literal stands for what is read
from it. -/
theorem evaluate_signed_power :
    ∃ program two, compile "-2^x" "x" "" .standard = .ok program ∧
      Literal.value? ['2'] = some two ∧
      ∀ x y, program.evaluate x y =
        (Expr.binary .pow (.signed .minus (.literal 0)) (.load .x)).evaluate
          (.of x y fun _ => two) := by
  cases compiled : compile "-2^x" "x" "" .standard with
  | error fault =>
    have succeeds : (compile "-2^x" "x" "" .standard).isOk = true := by decide +kernel
    rw [compiled] at succeeds
    cases succeeds
  | ok program =>
    obtain ⟨symbols, lexemes, literal, bound, read, values, _, same⟩ := evaluate_of_compile compiled
    obtain rfl : ⟨[⟨['x'], .x⟩]⟩ = symbols := Except.ok.inj bound
    obtain rfl : [⟨.additive .minus, ⟨0, 1⟩⟩, ⟨.constant 0, ⟨1, 2⟩⟩, ⟨.power, ⟨2, 3⟩⟩,
        ⟨.load .x, ⟨3, 4⟩⟩] = lexemes := Except.ok.inj read
    exact ⟨program, literal 0, rfl, values ⟨.constant 0, ⟨1, 2⟩⟩ (by simp) 0 rfl,
      same _ derives_signed_power⟩

end TapeCalc
