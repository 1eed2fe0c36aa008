import Calculator.Number.Double
import Calculator.Proofs.Number.Negation

/-!
# The bits of a double

A double is made of its sign and the bits below it. The finite doubles are those whose bits
lie below the bits of infinity, and above these there is only one double, which is not a
number. Negation sets or clears the sign.
-/
namespace Calculator.Number

open Float.Model (Format UnpackedFloat)
open Float.Model.UnpackedFloat

variable {x : Float}

theorem twoTo_signPlace : twoTo 63 = 9223372036854775808 := rfl

theorem infinityBits_eq : infinityBits = 9218868437227405312 := rfl

/-! ## The fields of the bits -/

theorem toNat_unpackMantissa (b : BitVec 64) :
    (@unpackMantissa .binary64 b).toNat = b.toNat % 2 ^ 52 := by
  rw [unpackMantissa_def, BitVec.extractLsb'_toNat, Nat.shiftRight_zero]

theorem toNat_unpackExponent (b : BitVec 64) :
    (@unpackExponent .binary64 b).toNat = b.toNat / 2 ^ 52 % 2 ^ 11 := by
  rw [unpackExponent_def, BitVec.extractLsb'_toNat, Nat.shiftRight_eq_div_pow]

theorem toNat_unpackSign (b : BitVec 64) :
    (@unpackSign .binary64 b).toNat = b.toNat / 2 ^ 63 % 2 := by
  rw [unpackSign_def, BitVec.extractLsb'_toNat, Nat.shiftRight_eq_div_pow]
  rfl

/-- From infinity on the exponent is all ones. -/
theorem unpackExponent_of_le {b : BitVec 64} (h : infinityBits ≤ b.toNat % twoTo 63) :
    @unpackExponent .binary64 b = -1#_ := by
  rw [twoTo_signPlace, infinityBits_eq] at h
  rw [← BitVec.toNat_inj, toNat_unpackExponent]
  change b.toNat / 2 ^ 52 % 2 ^ 11 = 2047
  omega

theorem unsignedBits_lt_of_isFinite (h : x.isFinite = true) : unsignedBits x < infinityBits := by
  by_contra hle
  have hexponent : @unpackExponent .binary64 x.toBits.toBitVec = -1#_ :=
    unpackExponent_of_le (Nat.le_of_not_lt hle)
  have hunpack : (unpack .binary64 x.toBits.toBitVec).isFinite = false := by
    simp only [unpack, hexponent, if_true]
    split <;> rfl
  exact Bool.false_ne_true (hunpack.symm.trans h)

/-- What is not a number has one row of bits only. -/
theorem toBits_of_lt (h : infinityBits < unsignedBits x) : x.toBits.toNat = notANumberBits := by
  have hmantissa : @unpackMantissa .binary64 x.toBits.toBitVec ≠ 0#_ := by
    intro hzero
    have hlow := toNat_unpackMantissa x.toBits.toBitVec
    rw [hzero] at hlow
    change 0 = x.toBits.toNat % 2 ^ 52 at hlow
    rw [unsignedBits, twoTo_signPlace, infinityBits_eq] at h
    omega
  exact congrArg BitVec.toNat (x.toModel.valid.eq_packedNaN (unpackExponent_of_le h.le) hmantissa)

/-! ## Sign and bits -/

theorem ofSignAndBits_unsignedBits (x : Float) :
    ofSignAndBits (isNegative x) (unsignedBits x) = x := by
  have hlt : x.toBits.toNat < 2 ^ 64 := x.toBits.toNat_lt
  have hbits : UInt64.ofNat (if isNegative x then twoTo 63 + unsignedBits x else unsignedBits x) =
      x.toBits := by
    rw [← UInt64.toNat_inj, UInt64.toNat_ofNat', isNegative, unsignedBits, twoTo_signPlace]
    simp only [decide_eq_true_eq]
    split <;> omega
  rw [ofSignAndBits, hbits, Float.ofBits_toBits]

theorem ofSignAndBits_of_lt (h : infinityBits < unsignedBits x) :
    ofSignAndBits false notANumberBits = x := by
  have hbits := toBits_of_lt h
  have hsign : isNegative x = false := by
    rw [isNegative, hbits]
    rfl
  have hlow : unsignedBits x = notANumberBits := by
    rw [unsignedBits, hbits]
    rfl
  rw [← hsign, ← hlow, ofSignAndBits_unsignedBits]

theorem flipSign_eq {b c : BitVec 64} (hb : @unpackSign .binary64 b = 0#1)
    (hc : @unpackSign .binary64 c = 1#1)
    (he : @unpackExponent .binary64 c = @unpackExponent .binary64 b)
    (hm : @unpackMantissa .binary64 c = @unpackMantissa .binary64 b) :
    @flipSign .binary64 b = c := by
  have hpacked := @packComponents_unpackSign_unpackExponent_unpackMantissa .binary64 c
  rw [hc, he, hm] at hpacked
  rw [flipSign, hb]
  exact hpacked

theorem flipSign_ofNat {bits : Nat} (h : bits < twoTo 63) :
    @flipSign .binary64 (BitVec.ofNat 64 bits) = BitVec.ofNat 64 (twoTo 63 + bits) := by
  rw [twoTo_signPlace] at h ⊢
  apply flipSign_eq
  · rw [← BitVec.toNat_inj, toNat_unpackSign, BitVec.toNat_ofNat]
    change bits % 2 ^ 64 / 2 ^ 63 % 2 = 0
    omega
  · rw [← BitVec.toNat_inj, toNat_unpackSign, BitVec.toNat_ofNat]
    change (9223372036854775808 + bits) % 2 ^ 64 / 2 ^ 63 % 2 = 1
    omega
  · rw [← BitVec.toNat_inj, toNat_unpackExponent, toNat_unpackExponent, BitVec.toNat_ofNat,
      BitVec.toNat_ofNat]
    omega
  · rw [← BitVec.toNat_inj, toNat_unpackMantissa, toNat_unpackMantissa, BitVec.toNat_ofNat,
      BitVec.toNat_ofNat]
    omega

theorem neg_ofSignAndBits {bits : Nat} (h : bits < twoTo 63) :
    -ofSignAndBits false bits = ofSignAndBits true bits := by
  have hpack : pack .binary64 (unpack .binary64 (pack .binary64
      (unpack .binary64 (BitVec.ofNat 64 bits)))).neg =
        pack .binary64 (unpack .binary64 (BitVec.ofNat 64 (twoTo 63 + bits))) := by
    rw [unpack_pack_unpack, ← unpack_flipSign, flipSign_ofNat h]
  rw [← Float.toBits_inj, ← UInt64.toBitVec_inj]
  exact hpack

end Calculator.Number
