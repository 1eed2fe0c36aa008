import Calculator.Number.Decimal
import Mathlib

/-!
# Rounding

A quotient is rounded to the nearest whole number, and one that is a double to that
double. The exact decimal of a double is therefore read as the double, and so is the
shortest one, which is only taken if it reads back.
-/
namespace Calculator.Number

variable {bits : Nat}

theorem twoTo_pos (exponent : Nat) : 0 < twoTo exponent :=
  Nat.two_pow_pos exponent

theorem stepsInOne_pos : 0 < stepsInOne :=
  twoTo_pos 1074

theorem tenTo_eq (exponent : Nat) : tenTo exponent = twoTo exponent * Nat.pow 5 exponent :=
  Nat.mul_pow 2 5 exponent

theorem scaleOfSteps_steps (bits : Nat) : scaleOfSteps (steps bits) = scale bits := by
  have hsize : twoTo 52 = 4503599627370496 := rfl
  rw [scaleOfSteps, steps, scale, hsize]
  rcases hfield : bits / 4503599627370496 with _ | field
  · have hlow : bits < 2 ^ 52 := by omega
    have hvalue : (bits - (0 - 1) * 4503599627370496) * twoTo (0 - 1) = bits := by
      simp [twoTo]
    have hlog : bits.log2 < 53 := by
      rcases Nat.eq_zero_or_pos bits with rfl | hpos
      · decide
      · exact ((Nat.log2_lt hpos.ne').mpr hlow).trans (by decide)
    rw [hvalue]
    omega
  · -- The significand has its top bit at place 52, and the scale shifts it up.
    obtain ⟨low, rfl⟩ : ∃ low, bits = (field + 1) * 4503599627370496 + low :=
      ⟨bits - (field + 1) * 4503599627370496, by omega⟩
    have hlow : low < 4503599627370496 := by omega
    have hsignificand : (field + 1) * 4503599627370496 + low - field * 4503599627370496 =
        2 ^ 52 + low := by omega
    have hlog : ((2 ^ 52 + low) * 2 ^ field).log2 = 52 + field := by
      have hlower := Nat.mul_le_mul_right (2 ^ field) (show 2 ^ 52 ≤ 2 ^ 52 + low by omega)
      have hupper := Nat.mul_lt_mul_of_pos_right (show 2 ^ 52 + low < 2 ^ 53 by omega)
        (Nat.two_pow_pos field)
      rw [← pow_add] at hlower hupper
      rw [Nat.log2_eq_iff (by positivity), show 52 + field + 1 = 53 + field by omega]
      exact ⟨hlower, hupper⟩
    have htwo : twoTo field = 2 ^ field := rfl
    rw [Nat.add_sub_cancel, hsignificand, htwo, hlog]
    omega

theorem roundDiv_mul_left (whole : Nat) {denominator : Nat} (h : 0 < denominator) :
    roundDiv (whole * denominator) denominator = whole := by
  rw [roundDiv, Nat.mul_div_cancel whole h, Nat.mul_mod_left, if_pos (by omega)]

/-- The whole number nearest to a quotient, the even one of two that are equally near. -/
structure RoundsTo (numerator denominator whole : Nat) : Prop where
  near : 2 * |(whole * denominator : Int) - numerator| ≤ denominator
  even : 2 * |(whole * denominator : Int) - numerator| = denominator → whole % 2 = 0

theorem roundsTo_roundDiv (numerator : Nat) {denominator : Nat} (h : 0 < denominator) :
    RoundsTo numerator denominator (roundDiv numerator denominator) := by
  obtain ⟨below, hbelow⟩ : ∃ below, below = numerator / denominator := ⟨_, rfl⟩
  obtain ⟨rest, hrest⟩ : ∃ rest, rest = numerator % denominator := ⟨_, rfl⟩
  have hlt : rest < denominator := hrest ▸ Nat.mod_lt _ h
  have hsplit : (numerator : Int) = below * denominator + rest := by
    rw [hbelow, hrest, mul_comm]
    exact_mod_cast (Nat.div_add_mod numerator denominator).symm
  have hdown : |(below * denominator : Int) - numerator| = rest := by
    rw [abs_sub_comm, hsplit, add_sub_cancel_left]
    exact Nat.abs_cast rest
  have hup : |((below + 1 : Nat) * denominator : Int) - numerator| = denominator - rest := by
    rw [hsplit, Nat.cast_succ, add_one_mul, add_sub_add_left_eq_sub, abs_of_nonneg]
    omega
  rw [roundDiv, ← hbelow, ← hrest]
  split
  · constructor <;> rw [hdown] <;> omega
  split
  · constructor <;> rw [hup] <;> omega
  · -- The quotient is midway between two whole numbers.
    rcases Nat.mod_two_eq_zero_or_one below with heven | hodd
    · rw [heven]
      constructor <;> rw [Nat.add_zero, hdown] <;> omega
    · rw [hodd]
      constructor <;> rw [hup] <;> omega

theorem nearestBits_zero {denominator : Nat} (h : 0 < denominator) :
    nearestBits 0 denominator = 0 := by
  have hscale : scaleOfSteps 0 = 0 := rfl
  have hpos : 0 < denominator * twoTo 0 := Nat.mul_pos h (twoTo_pos 0)
  rw [nearestBits, Nat.zero_mul, Nat.zero_div, hscale, roundDiv, Nat.zero_div, Nat.zero_mod,
    if_pos hpos, Nat.zero_mul]
  exact Nat.zero_min _

/-- A quotient that is a double, written with any common factor. -/
theorem nearestBits_steps (h : bits ≤ infinityBits) {factor : Nat} (hf : 0 < factor) :
    nearestBits (steps bits * factor) (stepsInOne * factor) = bits := by
  have hpos : 0 < stepsInOne * factor := Nat.mul_pos stepsInOne_pos hf
  have hwhole : steps bits * factor * stepsInOne / (stepsInOne * factor) = steps bits := by
    rw [mul_assoc, mul_comm factor, Nat.mul_div_cancel _ hpos]
  have hquotient : steps bits * factor * stepsInOne =
      (bits - scale bits * twoTo 52) * (stepsInOne * factor * twoTo (scale bits)) := by
    rw [steps]
    ring
  have hfield : scale bits * twoTo 52 ≤ bits := by
    have hdiv := Nat.div_mul_le_self bits (twoTo 52)
    have hle : scale bits ≤ bits / twoTo 52 := Nat.sub_le _ _
    exact (Nat.mul_le_mul_right _ hle).trans hdiv
  rw [nearestBits, hwhole, scaleOfSteps_steps, hquotient,
    roundDiv_mul_left _ (Nat.mul_pos hpos (twoTo_pos _)),
    Nat.add_sub_cancel' hfield]
  exact Nat.min_eq_left h

namespace Decimal

/-- A double written with as many places as one has doublings in steps. -/
theorem bits_of_places (h : bits ≤ infinityBits) {places factor : Nat}
    (hf : Nat.pow 5 places = factor) (hp : twoTo places = stepsInOne) :
    Decimal.bits ⟨steps bits * factor, -places⟩ = bits := by
  have hwhole : (-(places : Int)).toNat = 0 := by omega
  have hplaces : (-(-(places : Int))).toNat = places := by omega
  rw [Decimal.bits, numerator, denominator]
  dsimp only
  rw [hwhole, hplaces, tenTo_eq places, hp, hf, show tenTo 0 = 1 from rfl, mul_one]
  exact nearestBits_steps h (hf ▸ Nat.pow_pos (by decide))

theorem bits_exact (h : bits ≤ infinityBits) : (exact bits).bits = bits := by
  rw [exact]
  generalize hf : Nat.pow 5 1074 = factor
  have hb := bits_of_places h hf (by rw [stepsInOne])
  exact hb

theorem bits_of_onGrid? {exponent : Int} {d : Decimal} (h : onGrid? bits exponent = some d) :
    d.bits = bits := by
  have hd := List.find?_some h
  rwa [decide_eq_true_eq] at hd

/-- The shortest decimal of a double is read as the double. -/
theorem bits_shortest (h : bits ≤ infinityBits) : (shortest bits).bits = bits := by
  rw [shortest]
  cases htried : (List.range 20).findSome? fun (finer : Nat) =>
      onGrid? bits (boundingExponent bits - finer) with
  | none => exact bits_exact h
  | some d =>
    obtain ⟨finer, -, hd⟩ := List.exists_of_findSome?_eq_some htried
    exact bits_of_onGrid? hd

end Decimal

end Calculator.Number
