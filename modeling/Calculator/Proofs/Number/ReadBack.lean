import Calculator.Number.Written
import Calculator.Proofs.Number.Bits
import Calculator.Proofs.Number.Numeral
import Calculator.Proofs.Number.Rounding
import Calculator.Proofs.Text.Trimming

/-!
# Written numbers read back

A positional numeral reads as the decimal that it writes. A finite double is written as
digits with at most one point, behind a minus sign if it is negative, and every double is
what its text reads as, also between blanks: negative zero, the infinities and what is not
a number as well.
-/
namespace Calculator.Number

open Text
open TokenKind (isNumeric)

/-! ## Positional numerals -/

theorem isNumeric_of_isDigit {c : Char} (h : c.isDigit = true) : isNumeric c = true := by
  simp [isNumeric, h]

variable {whole fraction digits : List Char}

theorem takeWhile_digits (h : ∀ c ∈ digits, c.isDigit = true) :
    digits.takeWhile Char.isDigit = digits := by
  rw [← List.append_nil digits, List.takeWhile_append_of_pos h, List.takeWhile_nil]

theorem dropWhile_digits (h : ∀ c ∈ digits, c.isDigit = true) :
    digits.dropWhile Char.isDigit = [] :=
  List.dropWhile_eq_nil_iff.mpr h

theorem readDecimal?_whole (hne : whole ≠ []) (h : ∀ c ∈ whole, c.isDigit = true) :
    readDecimal? whole = some ⟨ofDigits whole, 0⟩ := by
  have hempty : whole.isEmpty = false := by simpa using hne
  rw [readDecimal?, takeWhile_digits h, dropWhile_digits h]
  simp [splitFraction, readExponent?, hempty]

theorem readDecimal?_point (hne : whole ≠ []) (hw : ∀ c ∈ whole, c.isDigit = true)
    (hf : ∀ c ∈ fraction, c.isDigit = true) : readDecimal? (whole ++ '.' :: fraction) =
      some ⟨ofDigits (whole ++ fraction), -fraction.length⟩ := by
  have hempty : whole.isEmpty = false := by simpa using hne
  have htake : (whole ++ '.' :: fraction).takeWhile Char.isDigit = whole := by
    rw [List.takeWhile_append_of_pos hw]
    simp
  have hdrop : (whole ++ '.' :: fraction).dropWhile Char.isDigit = '.' :: fraction := by
    rw [List.dropWhile_append_of_pos hw]
    simp
  rw [readDecimal?, htake, hdrop, splitFraction, takeWhile_digits hf, dropWhile_digits hf]
  simp [readExponent?, hempty]

theorem ofDigits_replicate_zero_append (count : Nat) (digits : List Char) :
    ofDigits (List.replicate count '0' ++ digits) = ofDigits digits := by
  change Nat.ofDigitChars 10 _ 0 = Nat.ofDigitChars 10 _ 0
  rw [Nat.ofDigitChars_append, Nat.ofDigitChars_replicate_zero, Nat.mul_zero]

theorem ofDigits_toDigits (value : Nat) : ofDigits (Nat.toDigits 10 value) = value :=
  Nat.ofDigitChars_ten_toDigits

/-- A positional numeral has its digits, a point before the last places if there are any, and at
least one digit before the point. -/
theorem positional_eq (value places : Nat) : ∃ whole fraction, whole ≠ [] ∧
    (∀ c ∈ whole, c.isDigit = true) ∧ (∀ c ∈ fraction, c.isDigit = true) ∧
      fraction.length = places ∧ ofDigits (whole ++ fraction) = value ∧
        positional value places = if places = 0 then whole else whole ++ '.' :: fraction := by
  let written := Nat.toDigits 10 value
  let padded := List.replicate (places + 1 - written.length) '0' ++ written
  have hlength : places < padded.length := by
    simp only [padded, List.length_append, List.length_replicate]
    omega
  have hdigits : ∀ c ∈ padded, c.isDigit = true := by
    intro c hc
    rcases List.mem_append.mp hc with hc | hc
    · rw [(List.mem_replicate.mp hc).2]
      decide
    · exact Nat.isDigit_of_mem_toDigits (by decide) (by decide) hc
  have hvalue : ofDigits padded = value :=
    (ofDigits_replicate_zero_append _ _).trans (ofDigits_toDigits value)
  refine ⟨padded.take (padded.length - places), padded.drop (padded.length - places), ?_, ?_, ?_,
    ?_, ?_, ?_⟩
  · rw [ne_eq, List.take_eq_nil_iff, ← List.length_eq_zero_iff]
    omega
  · exact fun c hc => hdigits c (List.mem_of_mem_take hc)
  · exact fun c hc => hdigits c (List.mem_of_mem_drop hc)
  · rw [List.length_drop]
    omega
  · rw [List.take_append_drop, hvalue]
  · rw [positional]
    by_cases hp : places = 0
    · subst hp
      rw [if_pos rfl, if_pos rfl, Nat.sub_zero, List.take_length]
    · rw [if_neg hp, if_neg hp]

theorem readDecimal?_positional (value places : Nat) :
    readDecimal? (positional value places) = some ⟨value, -places⟩ := by
  obtain ⟨whole, fraction, hne, hw, hf, hlength, hvalue, hp⟩ := positional_eq value places
  rw [hp]
  split
  · rename_i hzero
    obtain rfl : fraction = [] := List.length_eq_zero_iff.mp (hlength.trans hzero)
    rw [List.append_nil] at hvalue
    rw [readDecimal?_whole hne hw, hvalue, hzero]
    rfl
  · rw [readDecimal?_point hne hw hf, hvalue, hlength]

theorem isNumeric_of_mem_positional {value places : Nat} :
    ∀ c ∈ positional value places, isNumeric c = true := by
  obtain ⟨whole, fraction, -, hw, hf, -, -, hp⟩ := positional_eq value places
  rw [hp]
  intro c hc
  split at hc
  · exact isNumeric_of_isDigit (hw c hc)
  · rcases List.mem_append.mp hc with hc | hc
    · exact isNumeric_of_isDigit (hw c hc)
    · rcases List.mem_cons.mp hc with rfl | hc
      · decide
      · exact isNumeric_of_isDigit (hf c hc)

/-! ## Doubles in the fewest digits -/

theorem readUnsigned?_written (d : Decimal) : readUnsigned? d.written = some d.bits := by
  have hwhole : (-((-d.exponent).toNat : Int)).toNat = 0 := by omega
  have hplaces : (-(-((-d.exponent).toNat : Int))).toNat = (-d.exponent).toNat := by omega
  rw [Decimal.written, readUnsigned?_of_isNumeric isNumeric_of_mem_positional,
    readDecimal?_positional, Option.map_some, Decimal.bits, Decimal.bits, Decimal.numerator,
    Decimal.denominator, Decimal.numerator, Decimal.denominator]
  dsimp only
  rw [hwhole, hplaces, show tenTo 0 = 1 from rfl, Nat.mul_one]

variable {bits : Nat}

theorem readUnsigned?_shortestWritten (h : bits ≤ infinityBits) :
    readUnsigned? (shortestWritten bits) = some bits := by
  rw [shortestWritten]
  split
  · rename_i hzero
    have hbits : Decimal.bits ⟨0, 0⟩ = 0 := nearestBits_zero (by decide)
    have hread := readUnsigned?_written ⟨0, 0⟩
    rw [hbits] at hread
    rw [hzero]
    exact hread
  · rw [readUnsigned?_written, Decimal.bits_shortest h]

theorem isNumeric_of_mem_shortestWritten : ∀ c ∈ shortestWritten bits, isNumeric c = true := by
  intro c hc
  rw [shortestWritten] at hc
  split at hc
  · rw [List.mem_singleton.mp hc]
    decide
  · exact isNumeric_of_mem_positional c hc

/-! ## Texts of doubles -/

/-- A sign before a numeral that has none. -/
theorem read?_signed {text : List Char} (hs : splitSign text = (false, text))
    (h : readUnsigned? text = some bits) (negative : Bool) :
    read? (if negative then '-' :: text else text) = some (ofSignAndBits negative bits) := by
  cases negative with
  | false =>
    rw [if_neg Bool.false_ne_true, read?, hs]
    dsimp only
    rw [h, Option.map_some]
  | true =>
    rw [if_pos rfl, read?, splitSign]
    dsimp only
    rw [h, Option.map_some]

theorem toList_text (x : Float) : (text x).toList = written shortestWritten x :=
  String.toList_ofList

theorem written_of_lt {x : Float} (h : unsignedBits x < infinityBits)
    (finite : Nat → List Char) : written finite x =
      if isNegative x then '-' :: finite (unsignedBits x) else finite (unsignedBits x) := by
  rw [written]
  dsimp only
  rw [if_neg (Nat.not_lt.mpr h.le), if_neg h.ne]

theorem toList_text_of_lt {x : Float} (h : unsignedBits x < infinityBits) : (text x).toList =
    if isNegative x then '-' :: shortestWritten (unsignedBits x)
    else shortestWritten (unsignedBits x) := by
  rw [toList_text, written_of_lt h]

/-- Every double is what its text reads as. -/
theorem read?_text (x : Float) : read? (text x).toList = some x := by
  have hx := ofSignAndBits_unsignedBits x
  rcases lt_trichotomy (unsignedBits x) infinityBits with hfinite | hinfinite | hnan
  · have hs := splitSign_of_isNumeric (@isNumeric_of_mem_shortestWritten (unsignedBits x))
    rw [toList_text_of_lt hfinite,
      read?_signed hs (readUnsigned?_shortestWritten hfinite.le), hx]
  · have hs : splitSign "inf".toList = (false, "inf".toList) := rfl
    have hread : readUnsigned? "inf".toList = some infinityBits := by decide
    rw [hinfinite] at hx
    rw [toList_text, written]
    dsimp only
    rw [hinfinite, if_neg (lt_irrefl _), if_pos rfl, read?_signed hs hread, hx]
  · have hread : read? "NaN".toList = some (ofSignAndBits false notANumberBits) := rfl
    rw [toList_text, written]
    dsimp only
    rw [if_pos hnan, hread, ofSignAndBits_of_lt hnan]

/-! ## Between blanks -/

theorem not_isBlank_of_mem_text (x : Float) : ∀ c ∈ (text x).toList, isBlank c = false := by
  have hsigned (body : List Char) (h : ∀ c ∈ body, isBlank c = false) (negative : Bool) :
      ∀ c ∈ if negative then '-' :: body else body, isBlank c = false := by
    cases negative with
    | false => exact h
    | true => exact List.forall_mem_cons.mpr ⟨by decide, h⟩
  rw [toList_text, written]
  dsimp only
  have hword {word : List Char} (h : word.any isBlank = false) : ∀ c ∈ word, isBlank c = false := by
    simpa using h
  split
  · exact hword (by decide)
  · refine hsigned _ ?_ _
    split
    · exact hword (by decide)
    · intro c hc
      have hadmits : TokenKind.number.Admits c = true := isNumeric_of_mem_shortestWritten c hc
      exact TokenKind.not_isBlank_of_admits hadmits

/-- Blanks around the text of a double do not count for an answer. -/
theorem read?_trim_text (x : Float) {left right : List Char}
    (hleft : ∀ c ∈ left, isBlank c = true) (hright : ∀ c ∈ right, isBlank c = true) :
    read? (trim (left ++ (text x).toList ++ right)) = some x := by
  rw [trim_between hleft (bare_of_forall (not_isBlank_of_mem_text x)) hright, read?_text]

end Calculator.Number
