import Calculator.Number.Double
import Mathlib

/-!
# Doubles without a sign

Only a double whose sign bit is set is below zero.
-/
namespace Calculator.Number

open Float.Model (Format UnpackedFloat)
open Float.Model.UnpackedFloat

theorem compare_zero_ne_lt {spec : Format} {b : BitVec spec.numBits} (h : unpackSign b = 0#1) :
    (unpack spec b).compare (.zero .positive) ≠ some .lt := by
  have hs : Sign.ofBitVec 0#1 = .positive := rfl
  simp only [unpack, h, hs]
  split
  · split <;> simp [UnpackedFloat.compare]
  · split
    · split <;> simp [UnpackedFloat.compare]
    · simp [UnpackedFloat.compare]

theorem unpackSign_of_lt {bits : Nat} (h : bits < twoTo 63) :
    @unpackSign .binary64 (UInt64.ofNat bits).toBitVec = 0#1 := by
  have hb : bits.testBit 63 = false := Nat.testBit_lt_two_pow h
  ext i hi
  have hz : i = 0 := by omega
  subst hz
  have hbit : (UInt64.ofNat bits).toBitVec.getLsbD 63 = false := by
    change (BitVec.ofNat 64 bits).getLsbD 63 = false
    rw [BitVec.getLsbD_ofNat, hb, Bool.and_false]
  simpa [unpackSign, -BitVec.getLsbD_eq_getElem] using hbit

theorem not_lt_zero {bits : Nat} (h : bits < twoTo 63) : ¬ ofSignAndBits false bits < 0 := by
  intro hlt
  have hzero : (0 : Float).toModel.unpack = .zero .positive := rfl
  have hmodel : (ofSignAndBits false bits).toModel.unpack.lt (0 : Float).toModel.unpack = true :=
    of_decide_eq_true hlt
  rw [hzero, UnpackedFloat.lt, beq_iff_eq] at hmodel
  -- The bits are packed again when a double is made of them, and a NaN gets other bits there.
  change (unpack .binary64 (pack .binary64 (unpack .binary64 (UInt64.ofNat bits).toBitVec))).compare
    (.zero .positive) = some .lt at hmodel
  rw [pack_unpack] at hmodel
  by_cases hn : @isNaNBits .binary64 (UInt64.ofNat bits).toBitVec = true
  · rw [if_pos hn, unpack_packedNaN] at hmodel
    cases hmodel
  · rw [if_neg hn] at hmodel
    exact compare_zero_ne_lt (unpackSign_of_lt h) hmodel

end Calculator.Number
