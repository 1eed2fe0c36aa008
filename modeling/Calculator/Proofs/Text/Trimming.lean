import Calculator.Text.Blank
import Mathlib.Data.List.Basic

/-!
# Trimmed texts

A text is cut in exactly one way into blanks, a part that neither begins nor ends with a
blank, and blanks again. Trimming finds this part.
-/
namespace Calculator.Text

/-- The text neither begins nor ends with a blank. -/
def Bare (text : List Char) : Prop :=
  (∀ c ∈ text.head?, isBlank c = false) ∧ ∀ c ∈ text.getLast?, isBlank c = false

variable {text body left right : List Char}

theorem bare_of_forall (h : ∀ c ∈ text, isBlank c = false) : Bare text :=
  ⟨fun c hc => h c (List.mem_of_mem_head? hc), fun c hc => h c (List.mem_of_mem_getLast? hc)⟩

theorem dropWhile_blanks (hleft : ∀ c ∈ left, isBlank c = true)
    (h : ∀ c ∈ text.head?, isBlank c = false) : (left ++ text).dropWhile isBlank = text := by
  rw [List.dropWhile_append_of_pos hleft]
  cases text with
  | nil => rfl
  | cons c rest => rw [List.dropWhile_cons_of_neg (by simp [h c rfl])]

theorem not_isBlank_of_head?_dropWhile {c : Char} (h : (text.dropWhile isBlank).head? = some c) :
    isBlank c = false := by
  have hhead := List.head?_dropWhile_not isBlank text
  rwa [h] at hhead

theorem trimRight_append (hright : ∀ c ∈ right, isBlank c = true)
    (h : ∀ c ∈ text.getLast?, isBlank c = false) : trimRight (text ++ right) = text := by
  rw [trimRight, List.reverse_append, dropWhile_blanks (by simpa using hright),
    List.reverse_reverse]
  rwa [List.head?_reverse]

theorem trim_between (hleft : ∀ c ∈ left, isBlank c = true) (hbody : Bare body)
    (hright : ∀ c ∈ right, isBlank c = true) : trim (left ++ body ++ right) = body := by
  obtain ⟨hhead, hlast⟩ := hbody
  rw [trim, List.append_assoc]
  rcases body with _ | ⟨c, body⟩
  · have hall : ∀ c ∈ left ++ right, isBlank c = true :=
      fun c hc => (List.mem_append.mp hc).elim (hleft c) (hright c)
    have hnone : ((left ++ right) ++ []).dropWhile isBlank = [] := dropWhile_blanks hall nofun
    rw [List.append_nil] at hnone
    rw [List.nil_append, hnone]
    rfl
  · have hbehind : ∀ d ∈ (c :: body ++ right).head?, isBlank d = false := hhead
    rw [dropWhile_blanks hleft hbehind, trimRight_append hright hlast]

theorem exists_trimRight (text : List Char) :
    ∃ right, text = trimRight text ++ right ∧ ∀ c ∈ right, isBlank c = true := by
  refine ⟨(text.reverse.takeWhile isBlank).reverse, ?_, fun c hc => ?_⟩
  · rw [trimRight, ← List.reverse_append, List.takeWhile_append_dropWhile, List.reverse_reverse]
  · exact List.all_eq_true.mp List.all_takeWhile c (List.mem_reverse.mp hc)

theorem bare_trim (text : List Char) : Bare (trim text) := by
  constructor
  · intro c hc
    obtain ⟨right, hsplit, -⟩ := exists_trimRight (text.dropWhile isBlank)
    have hfront : (text.dropWhile isBlank).head? = some c := by
      rw [hsplit, List.head?_append]
      exact Option.or_eq_some_iff.mpr (.inl hc)
    exact not_isBlank_of_head?_dropWhile hfront
  · intro c hc
    rw [trim, trimRight, List.getLast?_reverse] at hc
    exact not_isBlank_of_head?_dropWhile hc

/-- A text is its trimmed part between blanks. -/
theorem exists_trim (text : List Char) :
    ∃ left right, text = left ++ trim text ++ right ∧ (∀ c ∈ left, isBlank c = true) ∧
      ∀ c ∈ right, isBlank c = true := by
  obtain ⟨right, hsplit, hright⟩ := exists_trimRight (text.dropWhile isBlank)
  refine ⟨text.takeWhile isBlank, right, ?_, fun c hc => ?_, hright⟩
  · rw [trim, List.append_assoc, ← hsplit, List.takeWhile_append_dropWhile]
  · exact List.all_eq_true.mp List.all_takeWhile c hc

/-- The second text is the first without the blanks at its two ends. -/
structure Trims (text body : List Char) : Prop where
  bare : Bare body
  between : ∃ left right, text = left ++ body ++ right ∧ (∀ c ∈ left, isBlank c = true) ∧
    ∀ c ∈ right, isBlank c = true

theorem trims_trimmed (text : String) : Trims text.toList (trimmed text).toList := by
  rw [trimmed, String.toList_ofList]
  exact ⟨bare_trim text.toList, exists_trim text.toList⟩

end Calculator.Text
