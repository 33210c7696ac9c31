import Mathlib
import TapeCalc.Decimal.Binary64

/-!
# The encoding of doubles

A double is determined by its sign and its magnitude, unless it is no number; all encodings of
what is no number stand for one and the same double.

Main definitions:

- {lit}`FloatClass.Describes`: what the class of a double says of it.

Main results:

- Theorem {lit}`isNaNBits_iff`: which encodings stand for no number.
- Theorem {lit}`FloatClass.describes_of`: the class of a double describes it.
-/

namespace TapeCalc

open Float.Model Float.Model.UnpackedFloat

/-- An encoding stands for no number if and only if its magnitude is beyond infinity. -/
theorem isNaNBits_iff (bits : UInt64) :
    @isNaNBits .binary64 bits.toBitVec ↔ Magnitude.infinity < bits.toNat % signWeight := by
  have word : bits.toBitVec.toNat = bits.toNat := rfl
  have exponent : @unpackExponent .binary64 bits.toBitVec = -1#11 ↔
      bits.toNat / 0x10000000000000 % 2048 = 2047 := by
    rw [← BitVec.toNat_inj, unpackExponent, BitVec.toNat_cast, BitVec.extractLsb_toNat, word,
      Nat.shiftRight_eq_div_pow]
    rfl
  have fraction : @unpackMantissa .binary64 bits.toBitVec = 0#52 ↔
      bits.toNat % 0x10000000000000 = 0 := by
    rw [← BitVec.toNat_inj, unpackMantissa, BitVec.toNat_cast, BitVec.extractLsb_toNat, word,
      Nat.shiftRight_zero]
    rfl
  rw [isNaNBits, decide_eq_true_eq]
  refine Iff.trans (and_congr exponent (not_congr fraction)) ?_
  rw [Magnitude.infinity, signWeight]
  omega

/-- The bits of a double are those it is made of, unless they stand for no number. -/
theorem toBits_ofBits {bits : UInt64} (number : ¬ @isNaNBits .binary64 bits.toBitVec) :
    (Float.ofBits bits).toBits = bits := by
  apply UInt64.toBitVec_inj.mp
  change (UnpackedFloat.unpack .binary64 bits.toBitVec).pack .binary64 = bits.toBitVec
  rw [pack_unpack, if_neg number]

/-- All bits that stand for no number make the same double. -/
theorem ofBits_eq_nan {bits : UInt64} (noNumber : @isNaNBits .binary64 bits.toBitVec) :
    Float.ofBits bits = .nan := by
  apply Float.toBits_inj.mp
  apply UInt64.toBitVec_inj.mp
  change (UnpackedFloat.unpack .binary64 bits.toBitVec).pack .binary64 = _
  rw [pack_unpack, if_pos noNumber]
  decide +kernel

/-- A magnitude that is no greater than infinity stands for a number. -/
theorem not_isNaNBits_of_le {magnitude : Nat} (h : magnitude ≤ Magnitude.infinity) :
    ¬ @isNaNBits .binary64 (UInt64.ofNat magnitude).toBitVec := by
  rw [Magnitude.infinity] at h
  rw [isNaNBits_iff, UInt64.toNat_ofNat', Magnitude.infinity, signWeight]
  omega

/-- A double is made of its sign and its magnitude. -/
theorem eq_ofSignMagnitude (x : Float) :
    x = ofSignMagnitude (signWeight ≤ x.toBits.toNat) (x.toBits.toNat % signWeight) := by
  have below := x.toBits.toNat_lt
  have whole : x.toBits.toNat % signWeight +
      (if decide (signWeight ≤ x.toBits.toNat) = true then signWeight else 0) =
      x.toBits.toNat := by
    rw [signWeight]
    split <;> rename_i sign <;> simp only [decide_eq_true_eq] at sign <;> omega
  rw [ofSignMagnitude, whole, UInt64.ofNat_toNat, Float.ofBits_toBits]

namespace FloatClass

/-- What the class of a double says of it. -/
inductive Describes : FloatClass → Float → Prop where
  | nan : Describes .nan .nan
  | infinite (negative : Bool) :
      Describes (.infinite negative) (ofSignMagnitude negative Magnitude.infinity)
  | finite (negative : Bool) {magnitude : Nat} (h : magnitude < Magnitude.infinity) :
      Describes (.finite negative magnitude) (ofSignMagnitude negative magnitude)

/-- The class of a double describes it. -/
theorem describes_of (x : Float) : (FloatClass.of x).Describes x := by
  have parts := eq_ofSignMagnitude x
  simp only [FloatClass.of]
  split
  · rename_i finite
    have described := Describes.finite (signWeight ≤ x.toBits.toNat) finite
    rwa [← parts] at described
  · rename_i least
    split
    · rename_i infinite
      have described := Describes.infinite (signWeight ≤ x.toBits.toNat)
      rwa [← infinite, ← parts] at described
    · rename_i other
      have noNumber := (isNaNBits_iff x.toBits).mpr
        (Nat.lt_of_le_of_ne (Nat.le_of_not_lt least) (Ne.symm other))
      have same := ofBits_eq_nan noNumber
      rw [Float.ofBits_toBits] at same
      rw [same]
      exact .nan

end FloatClass

end TapeCalc
