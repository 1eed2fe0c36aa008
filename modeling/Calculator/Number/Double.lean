/-!
# Doubles as whole numbers of steps

The smallest positive double is `2 ^ -1074`, and every finite double without a sign
is a whole number of steps of that size. Its bits order the doubles as their values
do: the low 52 bits and a scale, which counts doublings of the spacing. With that,
rounding a quotient to the nearest double is arithmetic on natural numbers.
-/
namespace Calculator.Number

/-- A power of two. -/
def twoTo (exponent : Nat) : Nat :=
  Nat.pow 2 exponent

/-- A power of ten. -/
def tenTo (exponent : Nat) : Nat :=
  Nat.pow 10 exponent

/-- One, in steps. -/
def stepsInOne : Nat := twoTo 1074

/-- The bits of positive infinity; the bits below it are those of the finite doubles. -/
def infinityBits : Nat := 2047 * twoTo 52

/-- The bits of the double that is not a number. -/
def notANumberBits : Nat := infinityBits + twoTo 51

/-- How often the spacing of doubles has doubled at the double with these bits. -/
def scale (bits : Nat) : Nat :=
  bits / twoTo 52 - 1

/-- The value of the double with these bits, in steps. -/
def steps (bits : Nat) : Nat :=
  (bits - scale bits * twoTo 52) * twoTo (scale bits)

/-- The whole number nearest to a quotient; a quotient midway between two goes to the even one. -/
def roundDiv (numerator denominator : Nat) : Nat :=
  let below := numerator / denominator
  let excess := 2 * (numerator % denominator)
  if excess < denominator then below
  else if denominator < excess then below + 1
  else below + below % 2

/-- The scale of the doubles next to a value that is `whole` steps, rounded down. -/
def scaleOfSteps (whole : Nat) : Nat :=
  whole.log2 - 52

/-- The bits of the double nearest to a quotient. Of two equally near the one with even bits is
taken, and quotients too large for a finite double give infinity. -/
def nearestBits (numerator denominator : Nat) : Nat :=
  let scale := scaleOfSteps (numerator * stepsInOne / denominator)
  let significand := roundDiv (numerator * stepsInOne) (denominator * twoTo scale)
  min (scale * twoTo 52 + significand) infinityBits

/-- The double with this sign and these bits below the sign. -/
def ofSignAndBits (negative : Bool) (bits : Nat) : Float :=
  Float.ofBits (UInt64.ofNat (if negative then twoTo 63 + bits else bits))

/-- Whether the sign bit of a double is set. -/
def isNegative (x : Float) : Bool :=
  twoTo 63 ≤ x.toBits.toNat

/-- The bits of a double below its sign. -/
def unsignedBits (x : Float) : Nat :=
  x.toBits.toNat % twoTo 63

end Calculator.Number
