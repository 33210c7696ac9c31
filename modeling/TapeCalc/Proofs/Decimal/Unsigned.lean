import TapeCalc.Proofs.Decimal.Encoding

/-!
# Doubles without a sign

Doubles compare equal without being the same for two reasons: a value that is not a
number, and the two zeros.  Among doubles without a sign there is neither, so comparing
them decides whether they are the same.

Main definitions:

- {lit}`HasNoSign`: a double that is a number and not the negative zero.

Main results:

- Theorem {lit}`beq_iff_eq_of_unsigned`: comparing doubles without a sign.
- Theorem {lit}`hasNoSign_ofSignMagnitude`: a magnitude without a sign is such a double.
-/

namespace TapeCalc

/-- Comparing doubles does not depend on their order. -/
theorem beq_double_comm (x y : Float) : (x == y) = (y == x) := by
  rw [Bool.eq_iff_iff, Float.beq_iff_ne_nan_and_eq, Float.beq_iff_ne_nan_and_eq]
  constructor <;> rintro ⟨number, number', same⟩ <;> refine ⟨number', number, ?_⟩ <;>
    rcases same with rfl | ⟨rfl, rfl⟩ | ⟨rfl, rfl⟩ <;> simp

/-- A double that is a number and not the negative zero. -/
structure HasNoSign (x : Float) : Prop where
  number : x ≠ .nan
  positive : x ≠ -0

/-- Doubles without a sign compare equal if and only if they are equal. -/
theorem beq_iff_eq_of_unsigned {x y : Float} (unsignedX : HasNoSign x) (unsignedY : HasNoSign y) :
    (x == y) = true ↔ x = y := by
  rw [Float.beq_iff_ne_nan_and_eq]
  constructor
  · rintro ⟨_, _, same | ⟨_, zero⟩ | ⟨zero, _⟩⟩
    · exact same
    · exact absurd zero unsignedY.positive
    · exact absurd zero unsignedX.positive
  · intro same
    exact ⟨unsignedX.number, unsignedY.number, Or.inl same⟩

/-- A magnitude without a sign is a double without a sign. -/
theorem hasNoSign_ofSignMagnitude {magnitude : Nat} (h : magnitude ≤ Magnitude.infinity) :
    HasNoSign (ofSignMagnitude false magnitude) := by
  have bits : (ofSignMagnitude false magnitude).toBits = UInt64.ofNat magnitude :=
    toBits_ofBits (not_isNaNBits_of_le h)
  rw [Magnitude.infinity] at h
  have differs {x : Float} (large : 0x7FF0000000000000 < x.toBits.toNat) :
      ofSignMagnitude false magnitude ≠ x := by
    rintro rfl
    rw [bits, UInt64.toNat_ofNat'] at large
    omega
  exact ⟨differs (by decide +kernel), differs (by decide +kernel)⟩

end TapeCalc
