import Calculator.Proofs.Conversion.Replacement
import Calculator.Proofs.Conversion.WellFormed
import Calculator.Proofs.Number.ReadBack
import Calculator.Session

/-!
# Results as literals

A finite double that the program shows is an expression with that double as its value.
A negative one is a sign and a literal, and the sign belongs to the literal alone: with
an operator behind it and another literal the value is that of the operator.
-/
namespace Calculator

open Number (shortestWritten unsignedBits isNegative)
open Text

variable {σ : Type} {source : Source σ} {state after : σ}

/-- The calculation of a group returns the value of its tree. -/
theorem run_calculate_group {group : Group Operand} (hgroup : group.Spaced)
    {valued : Group Value} (hv : (group.mapM source.read).run state = .ok (valued, after))
    {expression : String} (hs : Spelling group.marks expression.toList) :
    ((calculate expression).run source state).outcome = .ok valued.tree.value := by
  rw [run_calculate_outcome, Dialogue.run_outcome, play_convert_group hgroup hv hs]
  exact Tree.evaluate_postorder _

/-! ## The literal of a double -/

/-- A double in the fewest digits, without its sign. -/
theorem exists_numeral {x : Float} (hx : x.isFinite = true) :
    ∃ numeral : Numeral, numeral.digits = shortestWritten (unsignedBits x) ∧
      (if isNegative x then -numeral.value else numeral.value) = x := by
  have hlt := Number.unsignedBits_lt_of_isFinite hx
  have hplace : unsignedBits x < Number.twoTo 63 := Nat.mod_lt _ (Number.twoTo_pos 63)
  have hnumeric := @Number.isNumeric_of_mem_shortestWritten (unsignedBits x)
  have hread := Number.read?_signed (Number.splitSign_of_isNumeric hnumeric)
    (Number.readUnsigned?_shortestWritten hlt.le) false
  rw [if_neg Bool.false_ne_true] at hread
  obtain ⟨hdigit, hpoint⟩ := (Number.isSome_read?_iff hnumeric).mp (Option.isSome_of_eq_some hread)
  obtain ⟨numeral, hdigits⟩ :
      ∃ numeral : Numeral, numeral.digits = shortestWritten (unsignedBits x) :=
    ⟨⟨_, hnumeric, hdigit, hpoint⟩, rfl⟩
  have hvalue : numeral.value = Number.ofSignAndBits false (unsignedBits x) := by
    rw [← hdigits, numeral.read?_digits] at hread
    exact Option.some.inj hread
  refine ⟨numeral, hdigits, ?_⟩
  have hbits := Number.ofSignAndBits_unsignedBits x
  rw [hvalue]
  cases hn : isNegative x with
  | false =>
    rw [hn] at hbits
    rw [if_neg Bool.false_ne_true, hbits]
  | true =>
    rw [hn] at hbits
    rw [if_pos rfl, Number.neg_ofSignAndBits hplace, hbits]

/-- A literal with its sign, if it has one. -/
def literalMarks (signed : Bool) (numeral : Numeral) : List (Mark Operand) :=
  signMarks signed ++ [.operand (.numeral numeral)]

/-- A double is written as the sign that it has, if any, and its numeral. -/
theorem spelling_text {x : Float} (hx : x.isFinite = true) {numeral : Numeral}
    (hn : numeral.digits = shortestWritten (unsignedBits x)) :
    Spelling (literalMarks (isNegative x) numeral) (Number.text x).toList := by
  have hnumeral : Spelling [.operand (.numeral numeral)] numeral.digits := .singleton _
  rw [Number.toList_text_of_lt (Number.unsignedBits_lt_of_isFinite hx), ← hn]
  cases isNegative x with
  | false => exact hnumeral
  | true => exact .mark .sign hnumeral

/-! ## Values -/

/-- A sign before a literal is the sign of its value. -/
theorem value_literal (signed : Bool) (value : Float) :
    (Group.mk signed (.operand (.literal value)) .nil).tree.value =
      if signed then -value else value := by
  cases signed <;> rfl

/-- The sign belongs to the first of two literals and not to both. -/
theorem value_operation (signed : Bool) (value other : Float) (operator : Operator) :
    (Group.mk signed (.operand (.literal value))
      (.link .nil operator (.operand (.literal other)))).tree.value =
        operator.apply (if signed then -value else value) other := by
  cases signed <;> rfl

/-- A finite double is the value of its text, with any blanks around it. -/
theorem calculate_text {x : Float} (hx : x.isFinite = true) {expression : String}
    {left right : List Char} (hleft : ∀ c ∈ left, isBlank c = true)
    (hright : ∀ c ∈ right, isBlank c = true)
    (he : expression.toList = left ++ (Number.text x).toList ++ right) :
    ((calculate expression).run source state).outcome = .ok x := by
  obtain ⟨numeral, hn, hvalue⟩ := exists_numeral hx
  let group : Group Operand := .mk (isNegative x) (.operand (.numeral numeral)) .nil
  let valued : Group Value := .mk (isNegative x) (.operand (.literal numeral.value)) .nil
  have hmarks : group.marks = [] ++ literalMarks (isNegative x) numeral ++ [] := by
    simp [group, literalMarks, Group.marks, Primary.marks, Links.marks]
  have hs : Spelling group.marks expression.toList := by
    rw [he, hmarks]
    exact ((Spelling.blanks hleft).append (spelling_text hx hn)).append (Spelling.blanks hright)
  have hm : (group.mapM source.read).run state = .ok (valued, state) := rfl
  have hg : group.Spaced := ⟨trivial, trivial⟩
  rw [run_calculate_group hg hm hs, value_literal, hvalue]

/-- Between the texts of two finite doubles an operator is applied to them, if the second has no
sign. -/
theorem calculate_text_operation {x y : Float} (hx : x.isFinite = true) (hy : y.isFinite = true)
    (hsign : isNegative y = false) (operator : Operator) {expression : String}
    {left right : List Char} (hleft : ∀ c ∈ left, isBlank c = true)
    (hright : ∀ c ∈ right, isBlank c = true)
    (he : expression.toList =
      (Number.text x).toList ++ left ++ [operator.symbol] ++ right ++ (Number.text y).toList) :
    ((calculate expression).run source state).outcome = .ok (operator.apply x y) := by
  obtain ⟨numeral, hn, hvalue⟩ := exists_numeral hx
  obtain ⟨other, ho, hother⟩ := exists_numeral hy
  have hspelled := spelling_text hy ho
  rw [hsign] at hother hspelled
  let group : Group Operand := .mk (isNegative x) (.operand (.numeral numeral))
    (.link .nil operator (.operand (.numeral other)))
  let valued : Group Value := .mk (isNegative x) (.operand (.literal numeral.value))
    (.link .nil operator (.operand (.literal other.value)))
  have hmarks : group.marks = literalMarks (isNegative x) numeral ++ [] ++
      [.operation operator] ++ [] ++ literalMarks false other := by
    simp [group, literalMarks, Group.marks, Primary.marks, Links.marks, signMarks]
  have hs : Spelling group.marks expression.toList := by
    rw [he, hmarks]
    exact ((((spelling_text hx hn).append (Spelling.blanks hleft)).append
      (.singleton (.operation operator))).append (Spelling.blanks hright)).append hspelled
  have hm : (group.mapM source.read).run state = .ok (valued, state) := rfl
  have hg : group.Spaced := ⟨trivial, trivial, trivial⟩
  have hy : other.value = y := hother
  rw [run_calculate_group hg hm hs, value_operation, hvalue, hy]

/-- A finite result can be entered as it is shown, on a line of its own or before an operator and
another result without a sign. -/
theorem calculate_shown (source : Source σ) (state : σ) {x : Float} (hx : x.isFinite = true) :
    (∀ left right : String, (∀ c ∈ left.toList ++ right.toList, isBlank c = true) →
      ((calculate (left ++ shownValue none x ++ right)).run source state).outcome = .ok x) ∧
    ∀ y : Float, y.isFinite = true → isNegative y = false → ∀ (operator : Operator)
      (left right : String), (∀ c ∈ left.toList ++ right.toList, isBlank c = true) →
        ((calculate (shownValue none x ++ left ++ String.singleton operator.symbol ++ right ++
          shownValue none y)).run source state).outcome = .ok (operator.apply x y) := by
  constructor
  · intro left right hblank
    have hleft c (hc : c ∈ left.toList) := hblank c (List.mem_append_left _ hc)
    have hright c (hc : c ∈ right.toList) := hblank c (List.mem_append_right _ hc)
    exact calculate_text hx hleft hright (by simp [shownValue])
  · intro y hy hsign operator left right hblank
    have hleft c (hc : c ∈ left.toList) := hblank c (List.mem_append_left _ hc)
    have hright c (hc : c ∈ right.toList) := hblank c (List.mem_append_right _ hc)
    exact calculate_text_operation hx hy hsign operator hleft hright (by simp [shownValue])

theorem calculate_shown_negative_half :
    ((calculate "-0.5\n").run Bindings.empty.source ()).outcome = .ok (-0.5) ∧
      ((calculate "-0.5 ^2").run Bindings.empty.source ()).outcome =
        .ok (Operator.exponentiation.apply (-0.5) 2) := by
  have hhalf : shownValue none (-0.5) = "-0.5" := by decide +kernel
  have htwo : shownValue none 2 = "2" := by decide +kernel
  have hblank (c : Char) (hc : isBlank c = true) : ∀ d ∈ [c], isBlank d = true :=
    List.forall_mem_singleton.mpr hc
  obtain ⟨hline, hoperation⟩ :=
    calculate_shown Bindings.empty.source () (x := -0.5) (by decide +kernel)
  rw [hhalf] at hline hoperation
  have hsquare := hoperation 2 (by decide +kernel) (by decide +kernel) .exponentiation " " ""
    (hblank ' ' (by decide))
  rw [htwo] at hsquare
  exact ⟨hline "" "\n" (hblank '\n' (by decide)), hsquare⟩

end Calculator
