import TapeCalc.Proofs.Compiler.ReadAlike
import TapeCalc.Proofs.Lexer.SameLetters

/-!
# Case never matters

Two texts with the same letters, in small or in capital form, are compiled to one result, if the
names of the variables have the same letters too.

Letters are compared by their full capital forms, character by character in a text and as a
whole among the names.  So this holds for all letters, also for those whose capital form has
several characters.

Main results:

- Theorem {lit}`compile_eq_of_upper_eq`: the result for texts and names with the same letters.
-/

namespace TapeCalc

/-- A fault whose range stays where it is. -/
theorem Fault.relocated_id (fault : Fault) : fault.relocated id = fault := by
  rw [relocated]
  split <;> rfl

/-- If the characters of two texts have pairwise the same capital form, and those of the names too,
the texts are compiled to one result: the same program, with the same tape and the same pool, or the
same fault at the same range. -/
theorem compile_eq_of_upper_eq {text text' xName xName' yName yName' : String}
    (texts : text'.toList.map upper = text.toList.map upper)
    (xNames : xName'.toList.map upper = xName.toList.map upper)
    (yNames : yName'.toList.map upper = yName.toList.map upper) (limits : Limits) :
    compile text' xName' yName' limits = compile text xName yName limits := by
  have sameX := sameLetters_iff.mpr xNames
  have sameY := sameLetters_iff.mpr yNames
  cases bound : SymbolTable.ofNames xName yName with
  | error fault =>
    obtain ⟨rfl, clash⟩ := SymbolTable.ofNames_eq_error_iff.mp bound
    have bound' := SymbolTable.ofNames_eq_error_iff.mpr ⟨rfl, clash.of_sameLetters sameX sameY⟩
    rw [compile, compile, compilation, compilation, bound, bound']
  | ok symbols =>
    cases bound' : SymbolTable.ofNames xName' yName' with
    | error fault =>
      obtain ⟨rfl, clash⟩ := SymbolTable.ofNames_eq_error_iff.mp bound'
      have clashes := clash.of_sameLetters sameX.symm sameY.symm
      rw [SymbolTable.ofNames_eq_error_iff.mpr ⟨rfl, clashes⟩] at bound
      cases bound
    | ok symbols' =>
      have reachable := SymbolTable.reachable_of_ofNames bound
      have reachable' := SymbolTable.reachable_of_ofNames bound'
      have alike := Lexer.readAlike_respelled
        (SymbolTable.respelledIn_of_ofNames bound bound' sameX sameY)
        (SymbolTable.respelledIn_of_ofNames bound' bound sameX.symm sameY.symm)
        (SymbolTable.distinct_of_reachable reachable)
        (SymbolTable.distinct_of_reachable reachable')
      have starts : Lexer.Respelled (.ofText text.toList (Pool.empty limits.maxConstants))
          (.ofText text'.toList (Pool.empty limits.maxConstants)) :=
        ⟨sameLetters_iff.mpr texts, rfl, rfl⟩
      rw [compile_of_ofNames bound, compile_of_ofNames bound',
        alike.outcome_eq reachable.spelling_ne_nil reachable'.spelling_ne_nil starts]
      cases (compileWith symbols text.toList limits).outcome with
      | ok program => rfl
      | error fault => exact congrArg Except.error fault.relocated_id

/-- The names are two letters with one capital form, which has three characters. -/
theorem compile_eq_in_other_case :
    "sIN(\u1FD3)+1E2".toList.map upper = "Sin(\u0390)+1e2".toList.map upper ∧
      compile "sIN(\u1FD3)+1E2" "\u0390" "Y" .standard =
        compile "Sin(\u0390)+1e2" "\u1FD3" "y" .standard ∧
      (compile "Sin(\u0390)+1e2" "\u1FD3" "y" .standard).isOk = true := by
  have texts : "sIN(\u1FD3)+1E2".toList.map upper = "Sin(\u0390)+1e2".toList.map upper := by
    decide +kernel
  exact ⟨texts, compile_eq_of_upper_eq texts (by decide +kernel) (by decide +kernel) .standard,
    by decide +kernel⟩

end TapeCalc
