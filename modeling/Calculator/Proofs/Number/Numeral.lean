import Calculator.Number.Numeral
import Calculator.Proofs.Text.Classes

/-!
# Unsigned numerals

Among the rows of digits and points, those with a digit and no second point are the
numerals. They have neither sign nor exponent, so their values are not negative.
-/
namespace Calculator

open TokenKind

/-- A digit or point is the point or a digit, and not both. -/
theorem eq_point_of_isNumeric {c : Char} (h : isNumeric c = true) (hd : c.isDigit = false) :
    c = '.' := by
  simpa [isNumeric, hd] using h

theorem count_point_digits {digits : List Char} (h : ∀ c ∈ digits, c.isDigit = true) :
    digits.count '.' = 0 := by
  rw [List.count_eq_zero]
  intro hm
  exact absurd (h _ hm) (by decide)

namespace Number

theorem splitSign_of_isNumeric {text : List Char} (h : ∀ c ∈ text, isNumeric c = true) :
    splitSign text = (false, text) := by
  rcases text with _ | ⟨c, rest⟩
  · rfl
  · have hc : isNumeric c = true := h c List.mem_cons_self
    unfold splitSign
    split
    · rename_i he
      rw [(List.cons.inj he).1] at hc
      exact absurd hc (by decide)
    · rename_i he
      rw [(List.cons.inj he).1] at hc
      exact absurd hc (by decide)
    · rfl

theorem readUnsigned?_of_isNumeric {text : List Char} (h : ∀ c ∈ text, isNumeric c = true) :
    readUnsigned? text = (readDecimal? text).map Decimal.bits := by
  have hword : ∀ word : List Char, (∃ c ∈ word.head?, isNumeric c = false) →
      (∀ c : Char, isNumeric c = true → c.toLower = c) →
        String.ofList (text.map Char.toLower) ≠ String.ofList word := by
    rintro word ⟨c, hc, hn⟩ hlower he
    have hmap : text.map Char.toLower = text :=
      (List.map_congr_left fun d hd => hlower d (h d hd)).trans (List.map_id _)
    have hl : text = word := by
      rw [hmap] at he
      simpa using congrArg String.toList he
    subst hl
    rw [h c (List.mem_of_mem_head? hc)] at hn
    cases hn
  have hlower : ∀ c : Char, isNumeric c = true → c.toLower = c := by
    intro c hc
    have hall : ((Text.Ranges.codes [(0x2E, 0x2E), (0x30, 0x39)]).map Char.ofNat).all
        (fun d => d.toLower == d) = true := by decide
    exact eq_of_beq (List.all_eq_true.mp hall c (mem_digits hc))
  have hi := hword "inf".toList ⟨'i', rfl, by decide⟩ hlower
  have hy := hword "infinity".toList ⟨'i', rfl, by decide⟩ hlower
  have hn := hword "nan".toList ⟨'n', rfl, by decide⟩ hlower
  simp only [String.ofList_toList] at hi hy hn
  rw [readUnsigned?]
  simp [hi, hy, hn]

theorem readExponent?_of_isNumeric {text : List Char} (h : ∀ c ∈ text, isNumeric c = true) :
    readExponent? text = if text = [] then some 0 else none := by
  rcases text with _ | ⟨c, rest⟩
  · rfl
  · have hc : isNumeric c = true := h c List.mem_cons_self
    have he : ¬ (c = 'e' ∨ c = 'E') := by
      rintro (rfl | rfl) <;> exact absurd hc (by decide)
    simp [readExponent?, he]

/-- The digits at the front, and what follows them: nothing, or a point first. -/
theorem span_digits {text : List Char} (h : ∀ c ∈ text, isNumeric c = true) :
    ∃ whole tail, text = whole ++ tail ∧ text.takeWhile Char.isDigit = whole ∧
      text.dropWhile Char.isDigit = tail ∧ (∀ c ∈ whole, c.isDigit = true) ∧
      (tail = [] ∨ ∃ rest, tail = '.' :: rest ∧ ∀ c ∈ rest, isNumeric c = true) := by
  have hsplit : text.takeWhile Char.isDigit ++ text.dropWhile Char.isDigit = text :=
    List.takeWhile_append_dropWhile
  refine ⟨_, _, hsplit.symm, rfl, rfl, fun c hc => ?_, ?_⟩
  · exact List.all_eq_true.mp List.all_takeWhile c hc
  · rcases ht : text.dropWhile Char.isDigit with _ | ⟨c, rest⟩
    · exact Or.inl rfl
    · have hmem : ∀ d ∈ c :: rest, isNumeric d = true := fun d hd =>
        h d ((List.dropWhile_suffix _).subset (ht ▸ hd))
      have hd : c.isDigit = false := by
        have hhead := List.head?_dropWhile_not Char.isDigit text
        rw [ht] at hhead
        simpa using hhead
      have hp := eq_point_of_isNumeric (hmem c List.mem_cons_self) hd
      subst hp
      exact Or.inr ⟨rest, rfl, fun d hd => hmem d (List.mem_cons_of_mem _ hd)⟩

theorem exists_digit_iff {whole fraction : List Char} (hw : ∀ c ∈ whole, c.isDigit = true)
    (hf : ∀ c ∈ fraction, c.isDigit = true) :
    (∃ c ∈ whole ++ '.' :: fraction, c.isDigit = true) ↔
      (whole.isEmpty && fraction.isEmpty) = false := by
  rcases whole with _ | ⟨c, cs⟩
  · rcases fraction with _ | ⟨d, ds⟩
    · simp
    · have hd := hf d List.mem_cons_self
      simp [hd]
  · have hc := hw c List.mem_cons_self
    simp [hc]

/-- A row of digits and points is a decimal when it has a digit and no second point. -/
theorem isSome_readDecimal?_iff {text : List Char} (h : ∀ c ∈ text, isNumeric c = true) :
    (readDecimal? text).isSome = true ↔ (∃ c ∈ text, c.isDigit = true) ∧ text.count '.' ≤ 1 := by
  obtain ⟨whole, tail, rfl, hw, ht, hwhole, htail⟩ := span_digits h
  rw [readDecimal?, hw, ht, List.count_append, count_point_digits hwhole]
  rcases htail with rfl | ⟨rest, rfl, hrest⟩
  · have he : readExponent? [] = some 0 := rfl
    rcases whole with _ | ⟨c, cs⟩
    · simp [splitFraction]
    · have hc := hwhole c List.mem_cons_self
      simp [splitFraction, he, hc]
  · obtain ⟨fraction, remain, rfl, hf, hr, hfraction, hremain⟩ := span_digits hrest
    have hnum : ∀ c ∈ remain, isNumeric c = true := fun c hc =>
      hrest c (List.mem_append_right _ hc)
    have hcount : ('.' :: (fraction ++ remain)).count '.' = 1 + remain.count '.' := by
      rw [List.count_cons_self, List.count_append, count_point_digits hfraction]
      omega
    simp only [splitFraction, hf, hr]
    rw [hcount, readExponent?_of_isNumeric hnum]
    rcases hremain with rfl | ⟨more, rfl, -⟩
    · rw [List.append_nil, exists_digit_iff hwhole hfraction]
      cases hempty : whole.isEmpty && fraction.isEmpty <;> simp
    · simp

theorem isSome_read?_iff {text : List Char} (h : ∀ c ∈ text, isNumeric c = true) :
    (read? text).isSome = true ↔ (∃ c ∈ text, c.isDigit = true) ∧ text.count '.' ≤ 1 := by
  rw [read?, splitSign_of_isNumeric h, ← isSome_readDecimal?_iff h]
  simp only [readUnsigned?_of_isNumeric h, Option.isSome_map]

theorem bits_le_infinityBits (d : Decimal) : d.bits ≤ infinityBits :=
  Nat.min_le_right _ _

theorem read?_of_isNumeric {text : List Char} (h : ∀ c ∈ text, isNumeric c = true) {value : Float}
    (hv : read? text = some value) : ∃ bits ≤ infinityBits, value = ofSignAndBits false bits := by
  rw [read?, splitSign_of_isNumeric h] at hv
  simp only [readUnsigned?_of_isNumeric h, Option.map_map, Option.map_eq_some_iff] at hv
  obtain ⟨d, -, rfl⟩ := hv
  exact ⟨d.bits, bits_le_infinityBits d, rfl⟩

end Number

end Calculator
