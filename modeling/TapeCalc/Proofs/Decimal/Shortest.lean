import TapeCalc.Decimal.Shortest
import TapeCalc.Proofs.Decimal.Rounding

/-!
# The digits of a magnitude read back

The digits that are chosen for a magnitude read back, and so do all digits of its exact value,
which stand behind them.  Zeros at the end of the digits are left out, and this does not change
what is read, because a decimal is read by its value.

Main results:

- Theorem {lit}`Magnitude.ofDecimal_shift`: a zero at the end of the digits.
- Theorem {lit}`Magnitude.ofDecimal_shortest`: the digits of a finite magnitude read back.
-/

namespace TapeCalc

/-- A zero at the end is one digit more. -/
theorem digitCount_mul {coefficient : Nat} (positive : 0 < coefficient) :
    digitCount (10 * coefficient) = digitCount coefficient + 1 := by
  rw [digitCount, digitCount, Nat.toDigits_of_base_le (by decide) (by omega),
    Nat.mul_div_cancel_left _ (by decide), List.length_append, List.length_singleton]

namespace Magnitude

/-! ## Decimals with one value -/

/-- A decimal whose exponent is not below zero. -/
theorem ofDecimal_of_nonneg {coefficient : Nat} (positive : 0 < coefficient) {exponent : Int}
    (nonneg : 0 ≤ exponent) (small : exponent ≤ 400) :
    ofDecimal ⟨coefficient, exponent⟩ = ofRatio (coefficient * 10 ^ exponent.toNat) 1 := by
  simp only [ofDecimal]
  rw [if_neg (by omega), if_neg (by omega), if_neg (by omega), if_pos nonneg, Nat.pow_eq]

/-- A decimal whose exponent is below zero. -/
theorem ofDecimal_of_neg {coefficient : Nat} (positive : 0 < coefficient) {exponent : Int}
    (neg : exponent < 0) (large : -400 ≤ exponent + digitCount coefficient) :
    ofDecimal ⟨coefficient, exponent⟩ = ofRatio coefficient (10 ^ (-exponent).toNat) := by
  simp only [ofDecimal]
  rw [if_neg (by omega), if_neg (by omega), if_neg (by omega), if_neg (by omega), Nat.pow_eq]

/-- A decimal beyond the exponents of doubles is infinite. -/
theorem ofDecimal_of_large {coefficient : Nat} (positive : 0 < coefficient) {exponent : Int}
    (large : 400 < exponent) : ofDecimal ⟨coefficient, exponent⟩ = infinity := by
  simp only [ofDecimal]
  rw [if_neg (by omega), if_pos large]

/-- A decimal below the exponents of doubles is zero. -/
theorem ofDecimal_of_small {coefficient : Nat} {exponent : Int}
    (small : exponent + digitCount coefficient < -400) :
    ofDecimal ⟨coefficient, exponent⟩ = 0 := by
  simp only [ofDecimal, if_pos small]
  exact ite_eq_left_iff.mpr fun _ => if_neg (by omega)

/-- The greatest exponent that is looked at leads to infinity as well. -/
theorem ofDecimal_of_greatest {coefficient : Nat} (positive : 0 < coefficient) :
    ofDecimal ⟨coefficient, 400⟩ = infinity := by
  have power (places : Nat) : 2 ^ (3 * places) ≤ 10 ^ places := by
    rw [Nat.pow_mul]
    exact Nat.pow_le_pow_left (by decide) places
  rw [ofDecimal_of_nonneg positive (by decide) (by decide)]
  exact ofRatio_eq_infinity (by decide)
    (Nat.le_trans (power (Int.toNat 400)) (Nat.le_mul_of_pos_left _ positive))

/-- A zero at the end of the digits can be kept in the exponent. -/
theorem ofDecimal_shift {coefficient : Nat} (positive : 0 < coefficient) (exponent : Int) :
    ofDecimal ⟨10 * coefficient, exponent⟩ = ofDecimal ⟨coefficient, exponent + 1⟩ := by
  have more : 0 < 10 * coefficient := Nat.mul_pos (by decide) positive
  have digits := digitCount_mul positive
  rcases Int.lt_or_le 400 exponent with large | small
  · rw [ofDecimal_of_large more large, ofDecimal_of_large positive (by omega)]
  · rcases Int.lt_or_eq_of_le small with below | rfl
    · rcases Int.lt_or_le exponent 0 with neg | nonneg
      · rcases Int.lt_or_le (exponent + digitCount (10 * coefficient)) (-400) with tiny | visible
        · rw [ofDecimal_of_small tiny, ofDecimal_of_small (by omega)]
        · rw [ofDecimal_of_neg more neg visible]
          obtain ⟨places, rfl⟩ : ∃ places : Nat, exponent = -(places : Int) - 1 :=
            ⟨(-exponent - 1).toNat, by omega⟩
          have power : (-(-(places : Int) - 1)).toNat = places + 1 := by omega
          rw [power, Nat.pow_succ, Nat.mul_comm (10 ^ places), ofRatio_mul (by decide)]
          cases places with
          | zero =>
            rw [ofDecimal_of_nonneg positive (by decide) (by decide)]
            simp
          | succ places =>
            rw [ofDecimal_of_neg positive (by omega) (by omega)]
            congr 2
      · rw [ofDecimal_of_nonneg more nonneg small,
          ofDecimal_of_nonneg positive (by omega) (by omega),
          show (exponent + 1).toNat = exponent.toNat + 1 by omega, Nat.pow_succ]
        congr 1
        rw [Nat.mul_comm 10, Nat.mul_assoc, Nat.mul_comm 10]
    · rw [ofDecimal_of_greatest more, ofDecimal_of_large positive (by decide)]

/-- Zeros at the end of the digits can be kept in the exponent. -/
theorem ofDecimal_pow_mul (coefficient places : Nat) (exponent : Int) :
    ofDecimal ⟨10 ^ places * coefficient, exponent⟩ =
      ofDecimal ⟨coefficient, exponent + places⟩ := by
  rcases Nat.eq_zero_or_pos coefficient with rfl | positive
  · simp only [Nat.mul_zero, ofDecimal, if_true]
  · induction places generalizing exponent with
    | zero => rw [Nat.pow_zero, Nat.one_mul, Int.natCast_zero, Int.add_zero]
    | succ places ih =>
      have shorter : 0 < 10 ^ places * coefficient :=
        Nat.mul_pos (Nat.pow_pos (by decide)) positive
      rw [Nat.pow_succ', Nat.mul_assoc, ofDecimal_shift shorter, ih, Int.natCast_succ,
        Int.add_assoc, Int.add_comm 1]

/-- Leaving out the zeros at the end does not change what is read. -/
theorem ofDecimal_trim (decimal : Decimal) : ofDecimal decimal.trim = ofDecimal decimal := by
  fun_induction Decimal.trim decimal with
  | case1 decimal zero =>
    simp only [ofDecimal, zero, if_true]
  | case2 decimal nonzero divides ih =>
    rcases decimal with ⟨coefficient, exponent⟩
    dsimp only at nonzero divides ih ⊢
    obtain ⟨shorter, rfl⟩ := Nat.dvd_of_mod_eq_zero divides
    rw [Nat.mul_div_cancel_left _ (by decide)] at ih ⊢
    rw [ih, ofDecimal_shift (by omega)]
  | case3 decimal nonzero ends => rfl

/-! ## Digits that read back -/

/-- A finite magnitude other than zero has units. -/
theorem units_pos {bits : Nat} (positive : 0 < bits) : 0 < units bits := by
  by_cases small : bits < fractionCount
  · rwa [units_of_lt small]
  · have field : bits / fractionCount ≠ 0 :=
      Nat.pos_iff_ne_zero.mp (Nat.div_pos (Nat.le_of_not_lt small) (by decide))
    simp only [units, if_neg field]
    exact Nat.mul_pos (Nat.add_pos_left (by decide) _) (Nat.two_pow_pos _)

/-- All digits of a finite magnitude read back. -/
theorem ofDecimal_exactDecimal {bits : Nat} (positive : 0 < bits) (finite : bits < infinity) :
    ofDecimal (exactDecimal bits) = bits := by
  obtain ⟨places, many, one⟩ := exists_unitsPerOne_eq
  have exact : exactDecimal bits = ⟨units bits * Nat.pow 5 places, -(places : Int)⟩ := by
    rw [exactDecimal, many]
    rfl
  have power : 0 < 5 ^ places := Nat.pow_pos (by decide)
  -- Every third power of five has two digits more.
  obtain ⟨third, rfl⟩ : ∃ third, places = 3 * third := ⟨358, many⟩
  have digits : 2 * third < digitCount (units bits * 5 ^ (3 * third)) := by
    refine Nat.lt_of_not_le fun few => ?_
    have below := (Nat.length_toDigits_le_iff (by decide) (by omega)).mp few
    have above : 10 ^ (2 * third) ≤ 5 ^ (3 * third) := by
      rw [Nat.pow_mul, Nat.pow_mul]
      exact Nat.pow_le_pow_left (by decide) third
    have least := Nat.le_mul_of_pos_left (5 ^ (3 * third)) (units_pos positive)
    omega
  rw [exact, Nat.pow_eq,
    ofDecimal_of_neg (Nat.mul_pos (units_pos positive) power) (by omega) (by omega), Int.neg_neg,
    Int.toNat_natCast, show (10 : Nat) = 5 * 2 from rfl, Nat.mul_pow, Nat.mul_comm (units bits),
    ofRatio_mul power]
  rw [Nat.pow_eq] at one
  rw [← one, ofRatio_units finite]

/-- The digits of a finite magnitude other than zero read back. -/
theorem ofDecimal_shortest {bits : Nat} (positive : 0 < bits) (finite : bits < infinity) :
    ofDecimal (shortest bits) = bits := by
  simp only [shortest, ofDecimal_trim]
  cases found : (List.range 17).findSome? fun i => nearestOfLength? bits (i + 1) with
  | none => exact ofDecimal_exactDecimal positive finite
  | some decimal =>
    obtain ⟨i, _, nearest⟩ := List.exists_of_findSome?_eq_some found
    exact eq_of_beq (readsAs_of_nearestOfLength? nearest)

end Magnitude

end TapeCalc
