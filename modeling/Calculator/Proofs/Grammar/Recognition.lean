import Calculator.Proofs.Grammar.Group
import Mathlib.Tactic.Common

/-!
# Recognizing groups

Marks weigh one for each operand and minus one for each operator. Where no two operands
stand side by side and signs only lead, a row with an operand at its end weighs at most
one and any other row at most nothing. A row that reaches this bound is a group with
all that is open around it, so a closed row of weight one is a group.
-/
namespace Calculator

open Stage

variable {α β : Type}

namespace Mark

def weight : Mark α → Int
  | operand _ => 1
  | operation _ => -1
  | _ => 0

end Mark

def weight : List (Mark α) → Int
  | [] => 0
  | mark :: marks => mark.weight + weight marks

theorem weight_cons (mark : Mark α) (marks : List (Mark α)) :
    weight (mark :: marks) = mark.weight + weight marks := rfl

theorem weight_append (marks more : List (Mark α)) :
    weight (marks ++ more) = weight marks + weight more := by
  induction marks with
  | nil => exact (Int.zero_add _).symm
  | cons mark marks ih => rw [List.cons_append, weight_cons, weight_cons, ih, Int.add_assoc]

theorem weight_concat (marks : List (Mark α)) (mark : Mark α) :
    weight (marks ++ [mark]) = weight marks + mark.weight := by
  rw [weight_append, weight_cons]
  exact congrArg _ (Int.add_zero mark.weight)

/-- How many groups are open behind some marks; a closing parenthesis needs one. -/
def level? : Nat → List (Mark α) → Option Nat
  | level, [] => some level
  | 0, .closing :: _ => none
  | level + 1, .closing :: marks => level? level marks
  | level, mark :: marks => level? (if mark.opens then level + 1 else level) marks

/-- Signs lead their groups and no two operands stand side by side, from this stage on. -/
def Orderly : Stage → List (Mark α) → Prop
  | _, [] => True
  | stage, mark :: marks =>
    (mark = .sign → stage = leading) ∧ (stage = complete → mark.beginsOperand = false) ∧
      Orderly mark.stage marks

/-! ## Open groups -/

/-- The part of a group before one of its primaries. -/
inductive Partial (α : Type) where
  | start
  | signed
  | linked (group : Group α) (operator : Operator)

namespace Partial

def marks : Partial α → List (Mark α)
  | start => []
  | signed => [.sign]
  | linked group operator => group.marks ++ [.operation operator]

/-- The group with the next primary. -/
def extend : Partial α → Primary α → Group α
  | start, primary => .mk false primary .nil
  | signed, primary => .mk true primary .nil
  | linked (.mk negated first links) operator, primary =>
    .mk negated first (.link links operator primary)

theorem marks_extend (front : Partial α) (primary : Primary α) :
    (front.extend primary).marks = front.marks ++ primary.marks := by
  cases front with
  | start => simp [extend, Group.marks, Links.marks, signMarks, marks]
  | signed => simp [extend, Group.marks, Links.marks, signMarks, marks]
  | linked group operator =>
    cases group
    simp [extend, Group.marks, Links.marks, marks]

end Partial

/-- The mark that opens a group: of a call, or a parenthesis alone. -/
def openerOf : Option NamedFunction → Mark α
  | some function => .call function
  | none => .opening

def Primary.ofOpener (opener : Option NamedFunction) (group : Group α) : Primary α :=
  match opener with
  | some function => .call function group
  | none => .enclosed group

theorem Primary.marks_ofOpener (opener : Option NamedFunction) (group : Group α) :
    (Primary.ofOpener opener group).marks = openerOf opener :: group.marks ++ [.closing] := by
  cases opener <;> rfl

/-- The groups that are open around a place, the innermost at the head. -/
abbrev Surroundings (α : Type) := List (Partial α × Option NamedFunction)

def Surroundings.marks : Surroundings α → List (Mark α)
  | [] => []
  | (front, opener) :: outer => Surroundings.marks outer ++ front.marks ++ [openerOf opener]

/-- Some marks are a group up to this stage, inside so many open ones. -/
def Fits (level : Nat) (stage : Stage) (marks : List (Mark α)) : Prop :=
  ∃ outer : Surroundings α, outer.length = level ∧
    match stage with
    | leading => marks = outer.marks
    | awaiting => ∃ front : Partial α, marks = outer.marks ++ front.marks
    | complete => ∃ group : Group α, marks = outer.marks ++ group.marks

/-- The weight that marks of a group have behind a stage. -/
def bound : Stage → Int
  | complete => 1
  | _ => 0

theorem bound_le_one (stage : Stage) : bound stage ≤ 1 := by
  cases stage <;> decide

theorem weight_enclosed {opener : Mark α} (ho : opener.opens = true) (marks : List (Mark α)) :
    weight (opener :: marks ++ [.closing]) = weight marks := by
  have hw : opener.weight = 0 := by cases opener <;> first | rfl | cases ho
  rw [weight_concat, weight_cons, hw, Int.zero_add]
  exact Int.add_zero _

mutual

theorem Group.weight_marks : ∀ group : Group α, weight group.marks = 1
  | .mk signed first links => by
    have hs : weight (signMarks signed : List (Mark α)) = 0 := by cases signed <;> rfl
    rw [Group.marks, weight_append, weight_append, hs, first.weight_marks, links.weight_marks]
    rfl

theorem Links.weight_marks : ∀ links : Links α, weight links.marks = 0
  | .nil => rfl
  | .link links operator primary => by
    rw [Links.marks, weight_append, links.weight_marks, weight_cons, primary.weight_marks]
    rfl

theorem Primary.weight_marks : ∀ primary : Primary α, weight primary.marks = 1
  | .operand a => rfl
  | .enclosed group => by rw [Primary.marks, weight_enclosed rfl, group.weight_marks]
  | .call function group => by rw [Primary.marks, weight_enclosed rfl, group.weight_marks]

end

theorem Partial.weight_marks (front : Partial α) : weight front.marks = 0 := by
  cases front with
  | start => rfl
  | signed => rfl
  | linked group operator =>
    rw [Partial.marks, weight_concat, group.weight_marks]
    rfl

theorem Surroundings.weight_marks (outer : Surroundings α) : weight outer.marks = 0 := by
  induction outer with
  | nil => rfl
  | cons inner outer ih =>
    obtain ⟨front, opener⟩ := inner
    have ho : (openerOf opener : Mark α).weight = 0 := by cases opener <;> rfl
    rw [Surroundings.marks, weight_concat, weight_append, ih, front.weight_marks, ho]
    rfl

theorem Fits.weight_eq {level : Nat} {stage : Stage} {marks : List (Mark α)}
    (h : Fits level stage marks) : weight marks = bound stage := by
  obtain ⟨outer, -, h⟩ := h
  cases stage with
  | leading =>
    rw [h, outer.weight_marks]
    rfl
  | awaiting =>
    obtain ⟨front, rfl⟩ := h
    rw [weight_append, outer.weight_marks, front.weight_marks]
    rfl
  | complete =>
    obtain ⟨group, rfl⟩ := h
    rw [weight_append, outer.weight_marks, group.weight_marks]
    rfl

theorem Fits.exists_partial {level : Nat} {stage : Stage} {marks : List (Mark α)}
    (h : Fits level stage marks) (hs : stage ≠ complete) :
    ∃ (outer : Surroundings α) (front : Partial α),
      outer.length = level ∧ marks = outer.marks ++ front.marks := by
  obtain ⟨outer, hl, h⟩ := h
  cases stage with
  | leading => exact ⟨outer, .start, hl, by rw [h, Partial.marks, List.append_nil]⟩
  | awaiting =>
    obtain ⟨front, rfl⟩ := h
    exact ⟨outer, front, hl, rfl⟩
  | complete => exact absurd rfl hs

section Step

variable {level next : Nat} {stage : Stage} {marks : List (Mark α)}

theorem Fits.operand (h : Fits level stage marks) (hs : stage ≠ complete) (a : α) :
    Fits level complete (marks ++ [.operand a]) := by
  obtain ⟨outer, front, hl, rfl⟩ := h.exists_partial hs
  refine ⟨outer, hl, front.extend (.operand a), ?_⟩
  rw [front.marks_extend, List.append_assoc]
  rfl

theorem Fits.opener (h : Fits level stage marks) (hs : stage ≠ complete)
    (opener : Option NamedFunction) :
    Fits (level + 1) leading (marks ++ [openerOf opener]) := by
  obtain ⟨outer, front, hl, rfl⟩ := h.exists_partial hs
  exact ⟨(front, opener) :: outer, congrArg (· + 1) hl, rfl⟩

theorem Fits.sign (h : Fits level leading marks) : Fits level awaiting (marks ++ [.sign]) := by
  obtain ⟨outer, hl, rfl⟩ := h
  exact ⟨outer, hl, .signed, rfl⟩

theorem Fits.operation (h : Fits level complete marks) (operator : Operator) :
    Fits level awaiting (marks ++ [.operation operator]) := by
  obtain ⟨outer, hl, group, rfl⟩ := h
  exact ⟨outer, hl, .linked group operator, List.append_assoc _ _ _⟩

theorem Fits.closing (h : Fits (level + 1) complete marks) :
    Fits level complete (marks ++ [.closing]) := by
  obtain ⟨outer, hl, group, rfl⟩ := h
  cases outer with
  | nil => cases hl
  | cons inner outer =>
    obtain ⟨front, opener⟩ := inner
    refine ⟨outer, Nat.succ.inj hl, front.extend (.ofOpener opener group), ?_⟩
    rw [front.marks_extend, Primary.marks_ofOpener, Surroundings.marks]
    simp only [List.append_assoc, List.cons_append, List.nil_append]

/-- A mark keeps the row fitting, or makes it lighter than the row of a group would be. -/
theorem Fits.step (h : Fits level stage marks) {mark : Mark α}
    (hsign : mark = .sign → stage = leading)
    (hbegins : stage = complete → mark.beginsOperand = false)
    (hlevel : level? level [mark] = some next) :
    Fits next mark.stage (marks ++ [mark]) ∨ weight (marks ++ [mark]) < bound mark.stage := by
  have hw := h.weight_eq
  have hne : mark.beginsOperand = true → stage ≠ complete := by
    intro hm hs
    rw [hbegins hs] at hm
    cases hm
  cases mark with
  | operand a =>
    cases hlevel
    exact .inl (h.operand (hne rfl) a)
  | call function =>
    cases hlevel
    exact .inl (h.opener (hne rfl) (some function))
  | sign =>
    obtain rfl := hsign rfl
    cases hlevel
    exact .inl h.sign
  | operation operator =>
    cases hlevel
    by_cases hs : stage = complete
    · subst hs
      exact .inl (h.operation operator)
    · refine .inr ?_
      have hz : bound stage = 0 := by cases stage <;> first | rfl | exact absurd rfl hs
      rw [weight_concat]
      change weight marks + -1 < 0
      omega
  | opening =>
    cases hlevel
    exact .inl (h.opener (hne rfl) none)
  | closing =>
    cases level with
    | zero => cases hlevel
    | succ outside =>
      cases hlevel
      by_cases hs : stage = complete
      · subst hs
        exact .inl h.closing
      · refine .inr ?_
        have hz : bound stage = 0 := by cases stage <;> first | rfl | exact absurd rfl hs
        rw [weight_concat]
        change weight marks + 0 < 1
        omega

theorem weight_lt_bound_concat {mark : Mark α} (h : weight marks < bound stage)
    (hsign : mark = .sign → stage = leading)
    (hbegins : stage = complete → mark.beginsOperand = false) :
    weight (marks ++ [mark]) < bound mark.stage := by
  have hle := bound_le_one stage
  have hnot : mark.beginsOperand = true → bound stage = 0 := by
    intro hm
    cases stage with
    | complete =>
      rw [hbegins rfl] at hm
      cases hm
    | leading => rfl
    | awaiting => rfl
  rw [weight_concat]
  cases mark with
  | operand a =>
    have hz := hnot rfl
    change weight marks + 1 < 1
    omega
  | call function =>
    have hz := hnot rfl
    change weight marks + 0 < 0
    omega
  | sign =>
    obtain rfl := hsign rfl
    change weight marks + 0 < 0
    change weight marks < 0 at h
    omega
  | operation operator =>
    change weight marks + -1 < 0
    omega
  | opening =>
    have hz := hnot rfl
    change weight marks + 0 < 0
    omega
  | closing =>
    change weight marks + 0 < 1
    omega

end Step

theorem level?_cons (level : Nat) (mark : Mark α) (marks : List (Mark α)) :
    level? level (mark :: marks) = (level? level [mark]).bind (level? · marks) := by
  cases mark with
  | closing => cases level <;> rfl
  | operand a => rfl
  | call function => rfl
  | sign => rfl
  | operation operator => rfl
  | opening => rfl

/-- The induction is on the marks to come. A row that has become lighter stays so. -/
theorem fits_or_light {marks : List (Mark α)} :
    ∀ {front : List (Mark α)} {level last : Nat} {stage : Stage},
      Fits level stage front ∨ weight front < bound stage → Orderly stage marks →
        level? level marks = some last →
          ∃ behind, Fits last behind (front ++ marks) ∨ weight (front ++ marks) < bound behind := by
  induction marks with
  | nil =>
    intro front level last stage h _ hl
    cases hl
    rw [List.append_nil]
    exact ⟨stage, h⟩
  | cons mark marks ih =>
    intro front level last stage h ho hl
    obtain ⟨hsign, hbegins, ho⟩ := ho
    rw [level?_cons, Option.bind_eq_some_iff] at hl
    obtain ⟨next, hn, hl⟩ := hl
    have hstep : Fits next mark.stage (front ++ [mark]) ∨
        weight (front ++ [mark]) < bound mark.stage := by
      rcases h with h | h
      · exact h.step hsign hbegins hn
      · exact .inr (weight_lt_bound_concat h hsign hbegins)
    have hrest := ih hstep ho hl
    rwa [List.append_assoc] at hrest

/-- Orderly marks with all groups closed are a group, if they weigh as much as one. -/
theorem exists_group_of_weight {marks : List (Mark α)} (ho : Orderly leading marks)
    (hl : level? 0 marks = some 0) (hw : weight marks = 1) :
    ∃ group : Group α, group.marks = marks := by
  have hstart : Fits 0 leading ([] : List (Mark α)) := ⟨[], rfl, rfl⟩
  obtain ⟨stage, h⟩ := fits_or_light (.inl hstart) ho hl
  have hle := bound_le_one stage
  rw [List.nil_append] at h
  rcases h with h | h
  · have hb := h.weight_eq
    obtain ⟨outer, houter, h⟩ := h
    rw [List.length_eq_zero_iff] at houter
    cases stage with
    | complete =>
      obtain ⟨group, rfl⟩ := h
      refine ⟨group, ?_⟩
      rw [houter]
      rfl
    | leading =>
      rw [hw] at hb
      cases hb
    | awaiting =>
      rw [hw] at hb
      cases hb
  · omega

end Calculator
