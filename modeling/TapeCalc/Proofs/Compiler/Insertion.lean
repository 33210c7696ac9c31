import TapeCalc.Proofs.Compiler.ReadAlike
import TapeCalc.Proofs.Lexer.Insertion

/-!
# Gaps between lexemes

Blanks and closed comments may be put between the lexemes of a text, or in front of it.  The
text is read alike with them, so it is compiled to the same program, or to the same fault.  Only
the range of the fault stands further on if it begins behind the place where they are put in.

Main definitions:

- {lit}`insertAt`: a text with characters put in at a place.

Main results:

- Theorem {lit}`compile_insertAt`: compiling a text with a gap put in.
-/

namespace TapeCalc

/-- A text with characters put in at a place. -/
def insertAt (place : Nat) (characters text : List Char) : List Char :=
  text.take place ++ (characters ++ text.drop place)

/-- With names that bind, a text with a gap put in is compiled like the text. -/
theorem outcome_insertAt {symbols : SymbolTable}
    (named : ∀ symbol ∈ symbols.symbols, symbol.spelling ≠ []) (names : symbols.Gapless)
    {text : List Char} {place : Nat} (seam : IsSeam symbols text place) {gap : List Char}
    (isGap : IsGap gap) (limits : Limits) :
    (compileWith symbols (insertAt place gap text) limits).outcome =
      (compileWith symbols text limits).outcome.mapError
        (Fault.relocated (Span.shiftedFrom place gap.length)) := by
  obtain ⟨front, rest, rfl, rfl, passed⟩ := seam.exists_passed named
  rw [insertAt, List.take_left, List.drop_left]
  exact (Lexer.readAlike_apart named names front.length isGap).outcome_eq named named
    (.ahead passed (Nat.zero_add _))

/-- If no name has a blank or a comment mark in it, blanks and closed comments may be put into a
text at its start or where a lexeme ends, whatever the comments hold.  The text is compiled to the
same program, or to a fault with the same code and the same detail.  The range of the fault is
further on by what has been put in, if it does not begin in front of that place, and the same
otherwise; and a fault that points nowhere still does so. -/
theorem compile_insertAt (text xName yName : String) (limits : Limits)
    (plainX : ∀ c ∈ xName.toList, opensGap c = false)
    (plainY : ∀ c ∈ yName.toList, opensGap c = false) {place : Nat}
    (seam : ∀ symbols, SymbolTable.ofNames xName yName = .ok symbols →
      IsSeam symbols text.toList place)
    {gap : List Char} (isGap : IsGap gap) :
    compile (String.ofList (insertAt place gap text.toList)) xName yName limits =
      (compile text xName yName limits).mapError
        (Fault.relocated (Span.shiftedFrom place gap.length)) := by
  cases bound : SymbolTable.ofNames xName yName with
  | error fault =>
    obtain ⟨rfl, _⟩ := SymbolTable.ofNames_eq_error_iff.mp bound
    rw [compile, compile, compilation, compilation, bound]
    rfl
  | ok symbols =>
    have named := (SymbolTable.reachable_of_ofNames bound).spelling_ne_nil
    have names := SymbolTable.gapless_of_ofNames bound plainX plainY
    rw [compile_of_ofNames bound, compile_of_ofNames bound, String.toList_ofList]
    exact outcome_insertAt named names (seam symbols bound) isGap limits

/-- Behind {lit}`sin` a comment is put in that holds a parenthesis, and the literal that is refused
stands further on. -/
theorem compile_with_comment :
    IsSeam ⟨[⟨['x'], .x⟩, ⟨['y'], .y⟩]⟩ "sin(x)*1e".toList 3 ∧ IsGap "`(` ".toList ∧
      compile "sin(x)*1e" "x" "y" .standard = .error ⟨.badNumberFormat, ⟨7, 9⟩, ""⟩ ∧
      compile "sin`(` (x)*1e" "x" "y" .standard = .error ⟨.badNumberFormat, ⟨11, 13⟩, ""⟩ := by
  have bound : SymbolTable.ofNames "x" "y" = .ok ⟨[⟨['x'], .x⟩, ⟨['y'], .y⟩]⟩ := rfl
  have seam : IsSeam ⟨[⟨['x'], .x⟩, ⟨['y'], .y⟩]⟩ "sin(x)*1e".toList 3 :=
    Or.inr ⟨Pool.empty 20, _, .function .sin, .start, rfl, rfl⟩
  have isGap : IsGap "`(` ".toList :=
    @IsGap.comment ['('] [' '] (by decide) (.blank rfl .nil)
  have refused : compile "sin(x)*1e" "x" "y" .standard =
      .error ⟨.badNumberFormat, ⟨7, 9⟩, ""⟩ := rfl
  have plainX (c : Char) (inside : c ∈ "x".toList) : opensGap c = false := by
    rw [List.mem_singleton.mp inside]
    rfl
  have plainY (c : Char) (inside : c ∈ "y".toList) : opensGap c = false := by
    rw [List.mem_singleton.mp inside]
    rfl
  have atSeam (symbols : SymbolTable) (same : SymbolTable.ofNames "x" "y" = .ok symbols) :
      IsSeam symbols "sin(x)*1e".toList 3 := by
    cases bound.symm.trans same
    exact seam
  have moved := compile_insertAt "sin(x)*1e" "x" "y" .standard plainX plainY atSeam isGap
  rw [refused] at moved
  exact ⟨seam, isGap, refused, moved⟩

end TapeCalc
