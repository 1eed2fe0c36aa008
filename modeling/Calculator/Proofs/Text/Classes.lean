import Calculator.Text.Blank
import Calculator.Token
import Mathlib.Data.List.Basic

/-!
# The classes of characters exclude one another

Digits and points, letters, operators, parentheses and blanks have no character in
common, so the first character of a token decides its kind alone. The two finite
classes are listed and compared with the tables of the others.
-/
namespace Calculator

namespace Text

/-- The code points in a set of ranges, one by one. -/
def Ranges.codes (ranges : Ranges) : List Nat :=
  ranges.flatMap fun range => List.range' range.1 (range.2 + 1 - range.1)

theorem Ranges.mem_codes {code : Nat} {ranges : Ranges} (h : ranges.covers code = true) :
    code ∈ ranges.codes := by
  induction ranges with
  | nil => simp [covers] at h
  | cons range rest ih =>
    obtain ⟨first, last⟩ := range
    rw [covers] at h
    rw [codes, List.flatMap_cons, List.mem_append, List.mem_range'_1]
    split at h
    · left
      have hf : first ≤ code := by simpa using h
      omega
    · exact Or.inr (ih h)

end Text

namespace TokenKind

open Text

theorem mem_blanks {c : Char} (h : isBlank c = true) : c ∈ blankRanges.codes.map Char.ofNat := by
  rw [← Char.ofNat_toNat c]
  exact List.mem_map_of_mem (Ranges.mem_codes h)

theorem mem_digits {c : Char} (h : isNumeric c = true) :
    c ∈ (Ranges.codes [(0x2E, 0x2E), (0x30, 0x39)]).map Char.ofNat := by
  rw [← Char.ofNat_toNat c]
  refine List.mem_map_of_mem (Ranges.mem_codes ?_)
  simp only [isNumeric, Char.isDigit, Bool.or_eq_true, Bool.and_eq_true, decide_eq_true_eq] at h
  rcases h with ⟨hl, hu⟩ | rfl
  · have hl' : 0x30 ≤ c.toNat := hl
    have hu' : c.toNat ≤ 0x39 := hu
    have hm : ¬ c.toNat ≤ 0x2E := by omega
    simp [Ranges.covers, hl', hu', hm]
  · rfl

/-- No token begins with a blank. -/
theorem ofFirst?_of_isBlank {c : Char} (h : isBlank c = true) : ofFirst? c = none := by
  have hall : (blankRanges.codes.map Char.ofNat).all (fun b => (ofFirst? b).isNone) = true := by
    decide
  exact Option.isNone_iff_eq_none.mp (List.all_eq_true.mp hall c (mem_blanks h))

theorem isAlphabetic_of_isNumeric {c : Char} (h : isNumeric c = true) : isAlphabetic c = false := by
  have hall : ((Ranges.codes [(0x2E, 0x2E), (0x30, 0x39)]).map Char.ofNat).all
      (fun d => !isAlphabetic d) = true := by decide
  exact (Bool.not_eq_true' _).mp (List.all_eq_true.mp hall c (mem_digits h))

theorem ofFirst?_symbol (operation : Operator) : ofFirst? operation.symbol = some operator := by
  cases operation <;> decide

theorem exists_symbol_eq {c : Char} (h : isOperator c = true) :
    ∃ operation : Operator, operation.symbol = c := by
  obtain ⟨operation, hop⟩ := Option.isSome_iff_exists.mp h
  have hc : [c] = [operation.symbol] := Operator.ofText?_eq_some_iff.mp hop
  exact ⟨operation, (List.cons.inj hc).1.symm⟩

theorem ofFirst?_of_isOperator {c : Char} (h : isOperator c = true) : ofFirst? c = some operator := by
  obtain ⟨operation, rfl⟩ := exists_symbol_eq h
  exact ofFirst?_symbol operation

theorem ofFirst?_of_isParenthesis {c : Char} (h : isParenthesis c = true) :
    ofFirst? c = some punctuation := by
  have hc : c = '(' ∨ c = ')' := by simpa [isParenthesis] using h
  rcases hc with rfl | rfl <;> decide

theorem ofFirst?_of_isNumeric {c : Char} (h : isNumeric c = true) : ofFirst? c = some number := by
  rw [ofFirst?, if_pos h]

theorem ofFirst?_of_isAlphabetic {c : Char} (h : isAlphabetic c = true) :
    ofFirst? c = some identifier := by
  have hn : ¬ isNumeric c = true := fun hn => by
    rw [isAlphabetic_of_isNumeric hn] at h
    exact Bool.false_ne_true h
  rw [ofFirst?, if_neg hn, if_pos h]

theorem ofFirst?_head?_singleton {c : Char} {kind : TokenKind} (h : ofFirst? c = some kind) :
    ∀ d ∈ [c].head?, ofFirst? d = some kind := by
  intro d hd
  rw [List.head?_cons, Option.mem_some_iff] at hd
  rwa [← hd]

/-- The characters with which a token of a kind begins. -/
def Admits : TokenKind → Char → Bool
  | number => isNumeric
  | identifier => isAlphabetic
  | operator => isOperator
  | punctuation => isParenthesis

/-- The classes are disjoint: a kind begins with exactly the characters that it admits. -/
theorem ofFirst?_eq_some_iff {c : Char} {kind : TokenKind} :
    ofFirst? c = some kind ↔ kind.Admits c = true := by
  constructor
  · intro h
    unfold ofFirst? at h
    split at h
    · cases h; assumption
    split at h
    · cases h; assumption
    split at h
    · cases h; assumption
    split at h
    · cases h; assumption
    · cases h
  · intro h
    cases kind with
    | number => exact ofFirst?_of_isNumeric h
    | identifier => exact ofFirst?_of_isAlphabetic h
    | operator => exact ofFirst?_of_isOperator h
    | punctuation => exact ofFirst?_of_isParenthesis h

theorem admits_unique {c : Char} {kind other : TokenKind} (h : kind.Admits c = true)
    (ho : other.Admits c = true) : kind = other := by
  rw [← ofFirst?_eq_some_iff] at h ho
  exact Option.some.inj (h.symm.trans ho)

theorem admits_eq_false {c : Char} {kind : TokenKind} (h : kind.Admits c = true)
    (other : TokenKind) (hne : other ≠ kind) : other.Admits c = false := by
  by_contra ho
  rw [Bool.not_eq_false] at ho
  exact hne (admits_unique ho h)

/-- What does not begin as a parenthesis does is none. -/
theorem cons_ne_parenthesis {first : Char} (h : ofFirst? first ≠ some punctuation)
    (others : List Char) : first :: others ≠ ['('] ∧ first :: others ≠ [')'] := by
  constructor
  · rintro ⟨⟩
    exact h (by decide)
  · rintro ⟨⟩
    exact h (by decide)

theorem admits_of_ofFirst?_eq_none {c : Char} (h : ofFirst? c = none) (kind : TokenKind) :
    kind.Admits c = false := by
  by_contra hk
  rw [Bool.not_eq_false, ← ofFirst?_eq_some_iff, h] at hk
  cases hk

theorem admits_of_isBlank {c : Char} (h : isBlank c = true) (kind : TokenKind) :
    kind.Admits c = false :=
  admits_of_ofFirst?_eq_none (ofFirst?_of_isBlank h) kind

theorem not_isBlank_of_admits {c : Char} {kind : TokenKind} (h : kind.Admits c = true) :
    isBlank c = false := by
  by_contra hb
  rw [Bool.not_eq_false] at hb
  rw [admits_of_isBlank hb] at h
  exact Bool.false_ne_true h

end TokenKind

open Text TokenKind

/-- The characters of the classes; all others have no token. -/
theorem classes_iff {c : Char} : (isBlank c ∨ c.isDigit ∨ c = '.' ∨ isAlphabetic c ∨
    (∃ operator : Operator, c = operator.symbol) ∨ c = '(' ∨ c = ')') ↔
      ¬ (isBlank c = false ∧ ofFirst? c = none) := by
  constructor
  · rintro h ⟨hb, hf⟩
    have hno := admits_of_ofFirst?_eq_none hf
    rcases h with h | h | rfl | h | ⟨operator, rfl⟩ | rfl | rfl
    · rw [hb] at h
      cases h
    · have hn : isNumeric c = false := hno .number
      simp [isNumeric, h] at hn
    · exact absurd (hno .number) (by decide)
    · have hl : isAlphabetic c = false := hno .identifier
      rw [hl] at h
      cases h
    · exact absurd (hno .operator) (by cases operator <;> decide)
    · exact absurd (hno .punctuation) (by decide)
    · exact absurd (hno .punctuation) (by decide)
  · intro h
    by_cases hb : isBlank c
    · exact .inl hb
    · obtain ⟨kind, hf⟩ : ∃ kind, ofFirst? c = some kind := by
        rw [← Option.ne_none_iff_exists']
        exact fun hf => h ⟨by simpa using hb, hf⟩
      rw [ofFirst?_eq_some_iff] at hf
      cases kind with
      | number =>
        have hn : c = '.' ∨ c.isDigit = true := by simpa [Admits, isNumeric, or_comm] using hf
        rcases hn with hn | hn
        · exact .inr (.inr (.inl hn))
        · exact .inr (.inl hn)
      | identifier => exact .inr (.inr (.inr (.inl hf)))
      | operator =>
        obtain ⟨operator, rfl⟩ := exists_symbol_eq hf
        exact .inr (.inr (.inr (.inr (.inl ⟨operator, rfl⟩))))
      | punctuation =>
        have hp : c = '(' ∨ c = ')' := by simpa [Admits, isParenthesis] using hf
        exact .inr (.inr (.inr (.inr (.inr hp))))

end Calculator
