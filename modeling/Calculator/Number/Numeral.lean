import Calculator.Number.Decimal

/-!
# Numerals

The grammar of numerals: an optional sign, then `inf`, `infinity` or `nan` in letters
of either case, or digits with an optional point among or beside them, and an
optional exponent. A numeral has no blanks and no separators.
-/
namespace Calculator.Number

/-- The number that a row of decimal digits writes. -/
def ofDigits (digits : List Char) : Nat :=
  digits.foldl (fun value digit => 10 * value + (digit.toNat - '0'.toNat)) 0

/-- The exponent that a row of digits writes. Digits after the value has reached `65536` are
ignored: by then every numeral but zero is out of range. -/
def exponentOfDigits (digits : List Char) : Nat :=
  digits.foldl
    (fun value digit => if value < 65536 then 10 * value + (digit.toNat - '0'.toNat) else value) 0

/-- An optional sign and what follows it. -/
def splitSign : List Char → Bool × List Char
  | '-' :: rest => (true, rest)
  | '+' :: rest => (false, rest)
  | text => (false, text)

/-- The exponent of a numeral, from what follows its digits: nothing, or a mark, an optional sign
and at least one digit. -/
def readExponent? : List Char → Option Int
  | [] => some 0
  | mark :: text =>
    let (negative, digits) := splitSign text
    if (mark = 'e' || mark = 'E') && !digits.isEmpty && digits.all Char.isDigit then
      some (if negative then -(exponentOfDigits digits : Int) else exponentOfDigits digits)
    else none

/-- The digits after the point, if there is a point, and what follows them. -/
def splitFraction : List Char → List Char × List Char
  | '.' :: rest => (rest.takeWhile Char.isDigit, rest.dropWhile Char.isDigit)
  | text => ([], text)

/-- The decimal that a numeral without a sign writes. -/
def readDecimal? (text : List Char) : Option Decimal :=
  let whole := text.takeWhile Char.isDigit
  let (fraction, rest) := splitFraction (text.dropWhile Char.isDigit)
  if whole.isEmpty && fraction.isEmpty then none
  else (readExponent? rest).map fun exponent =>
    ⟨ofDigits (whole ++ fraction), exponent - fraction.length⟩

/-- The bits of the double that a numeral without a sign writes. -/
def readUnsigned? (text : List Char) : Option Nat :=
  let word := String.ofList (text.map Char.toLower)
  if word = "inf" || word = "infinity" then some infinityBits
  else if word = "nan" then some notANumberBits
  else (readDecimal? text).map Decimal.bits

/-- The double that a numeral writes; none if the text is no numeral. -/
def read? (text : List Char) : Option Float :=
  let (negative, unsigned) := splitSign text
  (readUnsigned? unsigned).map (ofSignAndBits negative)

/-- The double that a string writes as a numeral. -/
def ofString? (text : String) : Option Float :=
  read? text.toList

end Calculator.Number
