import Mathlib

/-!
# Double negation

A double is negated by its sign bit alone, and what is no number has no sign. Negating a
double twice gives the same double.
-/
namespace Calculator.Number

open Float.Model (Format UnpackedFloat)
open Float.Model.UnpackedFloat

theorem sign_neg_neg (sign : Sign) : - -sign = sign := by
  cases sign <;> rfl

theorem unpacked_neg_neg (x : UnpackedFloat) : x.neg.neg = x := by
  cases x with
  | notANumber => rfl
  | infinity sign => exact congrArg _ (sign_neg_neg sign)
  | zero sign => exact congrArg _ (sign_neg_neg sign)
  | finite sign mantissa exponent hpos =>
    rw [UnpackedFloat.neg, UnpackedFloat.neg, sign_neg_neg]

/-- The bits with the other sign. -/
def flipSign {spec : Format} (b : BitVec spec.numBits) : BitVec spec.numBits :=
  packComponents spec (-Sign.ofBitVec (unpackSign b)) (unpackExponent b) (unpackMantissa b)

theorem unpack_flipSign {spec : Format} (b : BitVec spec.numBits) :
    unpack spec (flipSign b) = (unpack spec b).neg := by
  simp only [unpack, flipSign, unpackExponent_packComponents, unpackMantissa_packComponents,
    unpackSign_packComponents, Sign.ofBitVec_toBitVec]
  split
  · split <;> rfl
  · split
    · split <;> rfl
    · rfl

/-- Bits are packed again as they were, or as another NaN. -/
theorem unpack_pack_unpack (b : BitVec Format.binary64.numBits) :
    unpack .binary64 (pack .binary64 (unpack .binary64 b)) = unpack .binary64 b := by
  rw [pack_unpack]
  split
  · rename_i hn
    simp only [isNaNBits, decide_eq_true_eq] at hn
    rw [unpack_packedNaN, unpack, if_pos hn.1, if_neg hn.2]
  · rfl

theorem neg_neg (x : Float) : - -x = x := by
  obtain ⟨⟨bits, valid⟩⟩ := x
  have hn : unpack .binary64 (pack .binary64 (unpack .binary64 bits.toBitVec).neg) =
      (unpack .binary64 bits.toBitVec).neg := by
    rw [← unpack_flipSign, unpack_pack_unpack]
  have h : pack .binary64 (unpack .binary64
      (pack .binary64 (unpack .binary64 bits.toBitVec).neg)).neg = bits.toBitVec := by
    rw [hn, unpacked_neg_neg, pack_unpack_of_valid valid]
  rw [← Float.toBits_inj, ← UInt64.toBitVec_inj]
  exact h

end Calculator.Number
