import Mathlib
import TapeCalc.Decimal.Binary64

/-!
# Rounding quotients

What a quotient is rounded to depends on its value only, not on its two terms.  A quotient that
is a magnitude is rounded to itself, and one beyond the greatest finite magnitude to infinity.

Main results:

- Theorem {lit}`Magnitude.ofRatio_mul`: a quotient whose terms have a factor in common.
- Theorem {lit}`Magnitude.ofRatio_units`: a finite magnitude is rounded to itself.
- Theorem {lit}`Magnitude.ofRatio_eq_infinity`: large numbers are rounded to infinity.
-/

namespace TapeCalc

/-! ## The nearest whole number -/

/-- A factor in common does not change the nearest whole number. -/
theorem roundEven_mul {factor : Nat} (positive : 0 < factor) (num den : Nat) :
    roundEven (factor * num) (factor * den) = roundEven num den := by
  have twice : 2 * (factor * (num % den)) = factor * (2 * (num % den)) := Nat.mul_left_comm _ _ _
  simp only [roundEven, Nat.mul_div_mul_left _ _ positive, Nat.mul_mod_mul_left, twice,
    Nat.mul_lt_mul_left positive]

/-- The nearest whole number to a whole number is the number itself. -/
theorem roundEven_whole (whole : Nat) {den : Nat} (positive : 0 < den) :
    roundEven (whole * den) den = whole := by
  have exact : 2 * (whole * den % den) < den := by rwa [Nat.mul_mod_left]
  simp only [roundEven]
  rw [if_pos exact, Nat.mul_div_cancel _ positive]

/-- The nearest whole number is no less than the whole part. -/
theorem le_roundEven (num den : Nat) : num / den ≤ roundEven num den := by
  simp only [roundEven]
  split
  · exact Nat.le_refl _
  · split
    · exact Nat.le_succ _
    · split
      · exact Nat.le_refl _
      · exact Nat.le_succ _

namespace Magnitude

/-! ## The nearest magnitude -/

/-- One is a power of two, counted in units. -/
theorem exists_unitsPerOne_eq : ∃ places, places = 1074 ∧ unitsPerOne = Nat.pow 2 places := by
  unfold unitsPerOne
  -- With a variable for the exponent no one tries to evaluate the power.
  generalize 1074 = places
  exact ⟨places, rfl, rfl⟩

/-- One is a positive number of units. -/
theorem unitsPerOne_pos : 0 < unitsPerOne := by
  obtain ⟨places, _, one⟩ := exists_unitsPerOne_eq
  rw [one]
  exact Nat.two_pow_pos places

/-- A factor in common does not change the nearest magnitude. -/
theorem ofRatio_mul {factor : Nat} (positive : 0 < factor) (num den : Nat) :
    ofRatio (factor * num) (factor * den) = ofRatio num den := by
  simp only [ofRatio, Nat.mul_assoc, Nat.mul_div_mul_left _ _ positive, roundEven_mul positive]

/-- The magnitude nearest to a number of units. -/
theorem ofRatio_unitsPerOne (num : Nat) :
    ofRatio num unitsPerOne =
      min infinity ((num.log2 - 52) * fractionCount + roundEven num (2 ^ (num.log2 - 52))) := by
  have whole : num * unitsPerOne / unitsPerOne = num := Nat.mul_div_cancel _ unitsPerOne_pos
  have scaled (shift : Nat) : roundEven (num * unitsPerOne) (unitsPerOne * 2 ^ shift) =
      roundEven num (2 ^ shift) := by
    rw [Nat.mul_comm num]
    exact roundEven_mul unitsPerOne_pos _ _
  simp only [ofRatio, whole]
  exact congrArg (fun rounded => min infinity ((num.log2 - 52) * fractionCount + rounded))
    (scaled _)

/-- The units of a magnitude with an exponent field. -/
theorem units_eq {exponent fraction : Nat} (inside : fraction < fractionCount) :
    units ((exponent + 1) * fractionCount + fraction) =
      (fractionCount + fraction) * 2 ^ exponent := by
  have field : ((exponent + 1) * fractionCount + fraction) / fractionCount = exponent + 1 := by
    rw [Nat.add_comm, Nat.add_mul_div_right _ _ (by decide), Nat.div_eq_of_lt inside, Nat.zero_add]
  have rest : ((exponent + 1) * fractionCount + fraction) % fractionCount = fraction := by
    rw [Nat.add_comm, Nat.add_mul_mod_self_right, Nat.mod_eq_of_lt inside]
  simp only [units, field, rest, if_neg (Nat.succ_ne_zero exponent)]
  rfl

/-- The units of a magnitude without an exponent field. -/
theorem units_of_lt {bits : Nat} (h : bits < fractionCount) : units bits = bits := by
  simp only [units, Nat.div_eq_of_lt h, Nat.mod_eq_of_lt h, if_true]

/-- A finite magnitude is the nearest one to its units. -/
theorem ofRatio_units {bits : Nat} (finite : bits < infinity) :
    ofRatio (units bits) unitsPerOne = bits := by
  rw [ofRatio_unitsPerOne]
  by_cases small : bits < fractionCount
  · have few : bits.log2 - 52 = 0 := by
      have below : bits.log2 ≤ 51 := Nat.le_of_lt_succ (by
        rcases Nat.eq_zero_or_pos bits with rfl | positive
        · decide
        · exact (Nat.log2_lt (Nat.pos_iff_ne_zero.mp positive)).mpr small)
      omega
    rw [units_of_lt small, few]
    have whole := roundEven_whole bits (Nat.one_pos)
    rw [Nat.mul_one] at whole
    rw [Nat.pow_zero, whole, Nat.zero_mul, Nat.zero_add]
    exact Nat.min_eq_right (Nat.le_of_lt finite)
  · obtain ⟨exponent, fraction, inside, rfl⟩ : ∃ exponent fraction, fraction < fractionCount ∧
        bits = (exponent + 1) * fractionCount + fraction := by
      refine ⟨bits / fractionCount - 1, bits % fractionCount, Nat.mod_lt _ (by decide), ?_⟩
      have field : 0 < bits / fractionCount := Nat.div_pos (Nat.le_of_not_lt small) (by decide)
      rw [Nat.sub_add_cancel field, Nat.div_add_mod']
    have leading : ((fractionCount + fraction) * 2 ^ exponent).log2 = exponent + 52 := by
      have positive : 0 < 2 ^ exponent := Nat.two_pow_pos exponent
      refine (Nat.log2_eq_iff (Nat.pos_iff_ne_zero.mp (Nat.mul_pos (by omega) positive))).mpr
        ⟨?_, ?_⟩
      · rw [Nat.pow_add, Nat.mul_comm]
        exact Nat.mul_le_mul_right _ (Nat.le_add_right fractionCount fraction)
      · rw [Nat.add_assoc, Nat.pow_add, Nat.mul_comm]
        have below : fractionCount + fraction < 2 * fractionCount := by omega
        exact Nat.mul_lt_mul_of_pos_left below positive
    rw [units_eq inside, leading, Nat.add_sub_cancel, roundEven_whole _ (Nat.two_pow_pos exponent)]
    rw [Nat.min_eq_right]
    · rw [Nat.succ_mul, Nat.add_assoc]
    · rw [← Nat.add_assoc, ← Nat.succ_mul]
      exact Nat.le_of_lt finite

/-- A number that no finite magnitude reaches is rounded to infinity. -/
theorem ofRatio_eq_infinity {num places : Nat} (beyond : 1024 ≤ places) (large : 2 ^ places ≤ num) :
    ofRatio num 1 = infinity := by
  have scaled : ofRatio num 1 = ofRatio (num * unitsPerOne) unitsPerOne := by
    have factor := ofRatio_mul unitsPerOne_pos num 1
    rwa [Nat.mul_one, Nat.mul_comm, eq_comm] at factor
  obtain ⟨more, many, one⟩ := exists_unitsPerOne_eq
  have units : 2 ^ (places + more) ≤ num * unitsPerOne := by
    rw [Nat.pow_add, one, Nat.pow_eq]
    exact Nat.mul_le_mul_right _ large
  generalize num * unitsPerOne = total at scaled units
  have positive : total ≠ 0 := by
    rintro rfl
    exact Nat.not_le.mpr (Nat.two_pow_pos _) units
  have leading : places + more ≤ total.log2 := (Nat.le_log2 positive).mpr units
  have bits : fractionCount ≤ roundEven total (2 ^ (total.log2 - 52)) := by
    refine Nat.le_trans ?_ (le_roundEven _ _)
    rw [Nat.le_div_iff_mul_le (Nat.two_pow_pos _)]
    calc fractionCount * 2 ^ (total.log2 - 52) = 2 ^ (52 + (total.log2 - 52)) :=
          (Nat.pow_add 2 52 _).symm
      _ = 2 ^ total.log2 := by rw [Nat.add_sub_cancel' (by omega)]
      _ ≤ total := Nat.log2_self_le positive
  rw [scaled, ofRatio_unitsPerOne]
  refine Nat.min_eq_left ?_
  calc infinity = 2046 * fractionCount + fractionCount := by decide
    _ ≤ (total.log2 - 52) * fractionCount + roundEven total (2 ^ (total.log2 - 52)) :=
        Nat.add_le_add (Nat.mul_le_mul_right _ (by omega)) bits

end Magnitude

end TapeCalc
