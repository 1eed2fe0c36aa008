import Calculator.Assignment
import Calculator.Proofs.Text.Classes
import Calculator.Proofs.Text.Trimming
import Mathlib.Data.List.TakeWhile

/-!
# The grammar of assignments

A text is an assignment exactly if it is a letter, an equals sign and a numeral, each of
them between blanks. Every other text is refused for one reason: it has no equals sign, or
what stands before the first one is no letter, or what stands behind it is no numeral. A
numeral has no equals sign, so a text with two is always refused.
-/
namespace Calculator

open Text

/-! ## The characters of a numeral -/

namespace Number

end Number

namespace Assignment

/-- What a text is read as. The reasons for a refusal come in this order: the right side is looked at
only behind a letter. -/
inductive Concludes (text : List Char) : Except AssignmentError Assignment → Prop
  /-- A letter, an equals sign and a numeral, each between blanks. -/
  | assignment {beforeName behindName beforeValue numeral behindValue : List Char} {name : Char}
      {value : Float}
      (split : text = beforeName ++ [name] ++ behindName ++ '=' ::
        (beforeValue ++ numeral ++ behindValue))
      (blank : ∀ c ∈ beforeName ++ behindName ++ beforeValue ++ behindValue, isBlank c = true)
      (letter : isAlphabetic name = true) (bare : Bare numeral)
      (reads : Number.read? numeral = some value) : Concludes text (.ok ⟨name, value⟩)
  | noEqualsSign (none : '=' ∉ text) : Concludes text (.error (.noEqualsSign text))
  | notALetter {left right : List Char} (split : text = left ++ '=' :: right) (first : '=' ∉ left)
      (noLetter : ∀ name, trim left = [name] → isAlphabetic name = false) :
      Concludes text (.error (.notALetter (trim left)))
  | notANumber {left right : List Char} {name : Char} (split : text = left ++ '=' :: right)
      (first : '=' ∉ left) (trimmed : trim left = [name]) (letter : isAlphabetic name = true)
      (noNumeral : Number.read? (trim right) = none) :
      Concludes text (.error (.notANumber (trim right)))

/-! ## The first equals sign -/

variable {text left right : List Char}

theorem split?_eq_none_iff : split? text = none ↔ '=' ∉ text := by
  rw [split?]
  cases hd : text.dropWhile (· ≠ '=') with
  | nil =>
    rw [List.dropWhile_eq_nil_iff] at hd
    refine iff_of_true rfl fun hm => ?_
    simpa using hd '=' hm
  | cons sign value =>
    refine iff_of_false nofun fun hm => ?_
    have hnil : text.dropWhile (· ≠ '=') = [] := by
      rw [List.dropWhile_eq_nil_iff]
      intro c hc
      simpa using fun he : c = '=' => hm (he ▸ hc)
    rw [hnil] at hd
    cases hd

/-- A text is cut at its first equals sign. -/
theorem split?_eq_some_iff :
    split? text = some (left, right) ↔ text = left ++ '=' :: right ∧ '=' ∉ left := by
  rw [split?]
  constructor
  · intro h
    cases hd : text.dropWhile (· ≠ '=') with
    | nil =>
      rw [hd] at h
      cases h
    | cons sign value =>
      rw [hd] at h
      cases h
      obtain rfl : sign = '=' := by
        have hhead := List.head?_dropWhile_not (fun c => decide (c ≠ '=')) text
        rw [hd] at hhead
        simpa using hhead
      constructor
      · rw [← hd, List.takeWhile_append_dropWhile]
      · intro hm
        simpa using List.all_eq_true.mp List.all_takeWhile '=' hm
  · rintro ⟨rfl, hleft⟩
    have hall : ∀ c ∈ left, decide (c ≠ '=') = true := fun c hc => by
      simpa using fun he : c = '=' => hleft (he ▸ hc)
    rw [List.dropWhile_append_of_pos hall, List.takeWhile_append_of_pos hall]
    simp

/-! ## Both sides -/

theorem letter?_eq_some_iff {name : Char} :
    letter? text = some name ↔ text = [name] ∧ isAlphabetic name = true := by
  rcases text with _ | ⟨c, _ | ⟨d, rest⟩⟩
  · simp [letter?]
  · rw [letter?]
    split
    · rename_i hc
      simp only [Option.some.injEq, List.cons.injEq, and_true]
      constructor
      · rintro rfl
        exact ⟨rfl, hc⟩
      · exact And.left
    · rename_i hc
      simp only [reduceCtorEq, List.cons.injEq, and_true, false_iff, not_and]
      rintro rfl
      exact hc
  · simp [letter?]

/-- What is read behind the first equals sign, and before it. -/
theorem read_of_split (hsplit : text = left ++ '=' :: right) (hfirst : '=' ∉ left) :
    read text = match letter? (trim left), Number.read? (trim right) with
      | none, _ => .error (.notALetter (trim left))
      | some _, none => .error (.notANumber (trim right))
      | some name, some value => .ok ⟨name, value⟩ := by
  rewrite [read, split?_eq_some_iff.mpr ⟨hsplit, hfirst⟩]
  rfl

theorem equalsSign_not_mem_blanks {blanks : List Char} (h : ∀ c ∈ blanks, isBlank c = true) :
    '=' ∉ blanks :=
  fun hm => absurd (h '=' hm) (by decide)

/-- The equals sign is neither a blank nor a letter. -/
theorem equalsSign_not_mem_name {before behind : List Char} {name : Char}
    (hbefore : ∀ c ∈ before, isBlank c = true) (hbehind : ∀ c ∈ behind, isBlank c = true)
    (hname : isAlphabetic name = true) : '=' ∉ before ++ [name] ++ behind := by
  simp only [List.mem_append, List.mem_singleton, not_or]
  refine ⟨⟨equalsSign_not_mem_blanks hbefore, ?_⟩, equalsSign_not_mem_blanks hbehind⟩
  rintro rfl
  exact absurd hname (by decide)

theorem bare_singleton {name : Char} (h : isAlphabetic name = true) : Bare [name] := by
  refine bare_of_forall (List.forall_mem_singleton.mpr ?_)
  have hadmits : TokenKind.identifier.Admits name = true := h
  exact TokenKind.not_isBlank_of_admits hadmits

theorem Concludes.read_eq {outcome : Except AssignmentError Assignment}
    (h : Concludes text outcome) : read text = outcome := by
  cases h with
  | @assignment beforeName behindName beforeValue numeral behindValue name value split blank letter
      bare reads =>
    simp only [List.forall_mem_append] at blank
    obtain ⟨⟨⟨hbeforeName, hbehindName⟩, hbeforeValue⟩, hbehindValue⟩ := blank
    have hfirst := equalsSign_not_mem_name hbeforeName hbehindName letter
    rw [read_of_split split hfirst, trim_between hbeforeName (bare_singleton letter) hbehindName,
      trim_between hbeforeValue bare hbehindValue, reads,
      letter?_eq_some_iff.mpr ⟨rfl, letter⟩]
  | noEqualsSign none => rw [read, split?_eq_none_iff.mpr none]
  | @notALetter left right split first noLetter =>
    have hletter : letter? (trim left) = none := by
      rw [Option.eq_none_iff_forall_ne_some]
      intro name hname
      obtain ⟨htrim, halphabetic⟩ := letter?_eq_some_iff.mp hname
      rw [noLetter name htrim] at halphabetic
      cases halphabetic
    rw [read_of_split split first, hletter]
  | @notANumber left right name split first trimmed letter noNumeral =>
    rw [read_of_split split first, letter?_eq_some_iff.mpr ⟨trimmed, letter⟩, noNumeral]

theorem concludes_read (text : List Char) : Concludes text (read text) := by
  cases hs : split? text with
  | none =>
    have hnone := split?_eq_none_iff.mp hs
    rw [(Concludes.noEqualsSign hnone).read_eq]
    exact .noEqualsSign hnone
  | some sides =>
    obtain ⟨left, right⟩ := sides
    obtain ⟨hsplit, hfirst⟩ := split?_eq_some_iff.mp hs
    rw [read_of_split hsplit hfirst]
    cases hl : letter? (trim left) with
    | none =>
      refine .notALetter hsplit hfirst fun name hname => ?_
      by_contra halphabetic
      rw [Bool.not_eq_false] at halphabetic
      rw [letter?_eq_some_iff.mpr ⟨hname, halphabetic⟩] at hl
      cases hl
    | some name =>
      obtain ⟨hname, halphabetic⟩ := letter?_eq_some_iff.mp hl
      cases hv : Number.read? (trim right) with
      | none => exact .notANumber hsplit hfirst hname halphabetic hv
      | some value =>
        obtain ⟨beforeName, behindName, hleft, hbeforeName, hbehindName⟩ := exists_trim left
        obtain ⟨beforeValue, behindValue, hright, hbeforeValue, hbehindValue⟩ := exists_trim right
        rw [hname] at hleft
        rw [hleft, hright] at hsplit
        refine .assignment hsplit ?_ halphabetic (bare_trim right) hv
        simp only [List.forall_mem_append]
        exact ⟨⟨⟨hbeforeName, hbehindName⟩, hbeforeValue⟩, hbehindValue⟩

/-- The message for a text that is no assignment quotes the whole text, or the side at fault without
the blanks around it. -/
theorem message_of_read {error : AssignmentError} (h : read text = .error error) :
    ('=' ∉ text ∧ error.message = "expected NAME=VALUE, got '" ++ String.ofList text ++ "'") ∨
    ∃ left right, text = left ++ '=' :: right ∧ '=' ∉ left ∧
      (error.message =
          "'" ++ String.ofList (trim left) ++ "' is not a single-letter variable" ∨
        error.message = "'" ++ String.ofList (trim right) ++ "' is not a valid number") := by
  have hread := concludes_read text
  rw [h] at hread
  cases hread with
  | noEqualsSign none => exact .inl ⟨none, rfl⟩
  | notALetter split first noLetter => exact .inr ⟨_, _, split, first, .inl rfl⟩
  | notANumber split first trimmed letter noNumeral =>
    exact .inr ⟨_, _, split, first, .inr rfl⟩

end Assignment

end Calculator
