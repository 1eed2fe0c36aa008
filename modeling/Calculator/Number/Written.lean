import Calculator.Number.Decimal

/-!
# Written numbers

Numbers are always written positionally, without an exponent. By default a number
has the fewest digits that read back and no point if it is whole; with a fixed count of
places its exact value is rounded, a tie going to the even last digit.
-/
namespace Calculator.Number

/-- The digits of `digits / 10 ^ places`, with `places` of them after the point. -/
def positional (digits places : Nat) : List Char :=
  let written := Nat.toDigits 10 digits
  let padded := List.replicate (places + 1 - written.length) '0' ++ written
  if places = 0 then padded
  else padded.take (padded.length - places) ++ '.' :: padded.drop (padded.length - places)

/-- A decimal in positional form, without padding after its last digit. -/
def Decimal.written (d : Decimal) : List Char :=
  positional (d.digits * tenTo d.exponent.toNat) (-d.exponent).toNat

/-- The double with these bits, in the fewest digits. -/
def shortestWritten (bits : Nat) : List Char :=
  if bits = 0 then ['0'] else (Decimal.shortest bits).written

/-- The double with these bits, rounded to a count of places. -/
def roundedWritten (places bits : Nat) : List Char :=
  positional (roundDiv (steps bits * tenTo places) stepsInOne) places

/-- A double with its sign, its finite values in the given form. What is not a number is written
without a sign. -/
def written (finite : Nat → List Char) (x : Float) : List Char :=
  let bits := unsignedBits x
  if infinityBits < bits then "NaN".toList
  else
    let magnitude := if bits = infinityBits then "inf".toList else finite bits
    if isNegative x then '-' :: magnitude else magnitude

/-- A number in the fewest digits that read back as it. -/
def text (x : Float) : String :=
  String.ofList (written shortestWritten x)

/-- A number rounded to a count of places. -/
def fixed (places : Nat) (x : Float) : String :=
  String.ofList (written (roundedWritten places) x)

end Calculator.Number
