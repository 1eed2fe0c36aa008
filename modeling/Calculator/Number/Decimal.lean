import Calculator.Number.Double

/-!
# Decimals and the shortest one that reads back

A decimal is a whole number of multiples of a power of ten. The shortest decimal of a
double lies on the coarsest power-of-ten grid with a point that the double is nearest
to. Only the two grid points around the value have to be tried: if any point of the
grid reads back, one of these does.
-/
namespace Calculator.Number

/-- The number `digits * 10 ^ exponent`. -/
structure Decimal where
  digits : Nat
  exponent : Int
deriving DecidableEq, Repr

namespace Decimal

/-- The numerator of a decimal written as a quotient. -/
def numerator (d : Decimal) : Nat :=
  d.digits * tenTo d.exponent.toNat

/-- The denominator of a decimal written as a quotient: a power of ten. -/
def denominator (d : Decimal) : Nat :=
  tenTo (-d.exponent).toNat

/-- The bits of the double nearest to a decimal. -/
def bits (d : Decimal) : Nat :=
  nearestBits d.numerator d.denominator

/-- The decimal that is exactly the double with these bits. -/
def exact (bits : Nat) : Decimal :=
  ⟨steps bits * Nat.pow 5 1074, -1074⟩

/-- The two points of the grid of multiples of `10 ^ exponent` around the double with these
bits, the nearer first. The upper point comes first when both are equally near. -/
def around (bits : Nat) (exponent : Int) : List Decimal :=
  let numerator := steps bits * tenTo (-exponent).toNat
  let denominator := stepsInOne * tenTo exponent.toNat
  let below := numerator / denominator
  if denominator ≤ 2 * (numerator % denominator) then
    [⟨below + 1, exponent⟩, ⟨below, exponent⟩]
  else
    [⟨below, exponent⟩, ⟨below + 1, exponent⟩]

/-- The point of the grid of multiples of `10 ^ exponent` nearest to the double with these bits
among those that read back as that double. -/
def onGrid? (bits : Nat) (exponent : Int) : Option Decimal :=
  (around bits exponent).find? fun d => d.bits = bits

/-- An exponent `e` with the double with these bits below `10 ^ e`. The fraction is slightly more
than the decimal logarithm of two. -/
def boundingExponent (bits : Nat) : Int :=
  (((steps bits).log2 : Int) - 1073) * 30103 / 100000 + 1

/-- The decimal with the fewest digits that reads back as the double with these bits, and of
these the nearest. Grids are tried from coarse to fine; seventeen digits always suffice, and
the exact decimal stands behind them. -/
def shortest (bits : Nat) : Decimal :=
  let tried := (List.range 20).findSome? fun (finer : Nat) =>
    onGrid? bits (boundingExponent bits - finer)
  tried.getD (exact bits)

end Decimal

end Calculator.Number
