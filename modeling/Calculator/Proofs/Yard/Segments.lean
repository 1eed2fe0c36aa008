import Calculator.Proofs.Yard.Nesting
import Mathlib.Data.List.Nodup

/-!
# The segments of the stack

The open parentheses cut the stack into segments, the innermost at the head. Within one
there is at most one sign, at the bottom, and the operators above it bind ever more
tightly. Since there are three precedences, no segment has more than four entries.
-/
namespace Calculator

/-- Operators from the top down, each of which binds more tightly than all below it, and at most one
sign below them. -/
inductive Segment : List Waiting → Prop
  | of {operators : List Operator} {bottom : List Waiting}
      (rising : operators.Pairwise fun above below => below.precedence < above.precedence)
      (sign : bottom = [] ∨ bottom = [.negation]) : Segment (operators.map .operation ++ bottom)

namespace Segment

variable {entry : Waiting} {entries : List Waiting} {operator : Operator}

theorem nil : Segment [] := of .nil (.inl rfl)

theorem negation : Segment [.negation] := of .nil (.inr rfl)

theorem tail (h : Segment (entry :: entries)) : Segment entries := by
  generalize he : entry :: entries = all at h
  obtain @⟨operators, bottom, rising, sign⟩ := h
  rcases operators with _ | ⟨top, operators⟩
  · rcases sign with rfl | rfl
    · cases he
    · cases he
      exact nil
  · cases he
    exact of rising.of_cons sign

/-- An operator may be put on one that binds less tightly, on a sign or on nothing. -/
theorem cons (h : Segment entries)
    (hlow : ∀ top, entries.head? = some (.operation top) → top.precedence < operator.precedence) :
    Segment (.operation operator :: entries) := by
  obtain @⟨operators, bottom, rising, sign⟩ := h
  have hrising : (operator :: operators).Pairwise fun above below =>
      below.precedence < above.precedence := by
    refine List.pairwise_cons.mpr ⟨?_, rising⟩
    rcases operators with _ | ⟨top, operators⟩
    · exact nofun
    · have htop := hlow top rfl
      exact List.forall_mem_cons.mpr
        ⟨htop, fun below hb => Nat.lt_trans (List.rel_of_pairwise_cons rising hb) htop⟩
  exact of hrising sign

/-- There are three precedences, so no more than three operators can bind ever more tightly. -/
theorem length_le (h : Segment entries) : entries.length ≤ 4 := by
  obtain @⟨operators, bottom, rising, sign⟩ := h
  have hdistinct : (operators.map Operator.precedence).Nodup :=
    List.pairwise_map.mpr (rising.imp Nat.ne_of_gt)
  have hprecedences : operators.map Operator.precedence ⊆ [1, 2, 3] := by
    intro precedence hp
    obtain ⟨operator, -, rfl⟩ := List.mem_map.mp hp
    cases operator <;> decide
  have hthree := hdistinct.length_le_of_subset hprecedences
  have hsign : bottom.length ≤ 1 := by
    rcases sign with rfl | rfl
    · exact Nat.zero_le 1
    · exact Nat.le_refl 1
  rw [List.length_map, List.length_cons, List.length_cons, List.length_singleton] at hthree
  rw [List.length_append, List.length_map]
  omega

end Segment

/-- The segments of a stack, from the top down. -/
def segments (stack : List Waiting) : List (List Waiting) :=
  stack.splitOn .parenthesis

/-- All segments of the stack have the shape that they should have. -/
def Segmented (stack : List Waiting) : Prop :=
  ∀ segment ∈ segments stack, Segment segment

variable {entry : Waiting} {stack : List Waiting}

theorem segments_opened (stack : List Waiting) :
    segments (.parenthesis :: stack) = [] :: segments stack := by
  rw [segments, List.splitOn_cons_eq_if_modifyHead, if_pos (by decide)]
  rfl

theorem exists_segments (stack : List Waiting) : ∃ top below, segments stack = top :: below :=
  List.exists_cons_of_ne_nil (List.splitOn_ne_nil _ _)

theorem segments_cons {top : List Waiting} {below : List (List Waiting)}
    (hs : segments stack = top :: below) (he : entry ≠ .parenthesis) :
    segments (entry :: stack) = (entry :: top) :: below := by
  rw [segments] at hs
  rw [segments, List.splitOn_cons_eq_if_modifyHead, if_neg (by simpa using he), hs]
  rfl

/-- The top of the innermost segment is the top of the stack. -/
theorem head?_of_segments {top : List Waiting} {below : List (List Waiting)}
    (hs : segments stack = top :: below) (hentry : top.head? = some entry) :
    stack.head? = some entry := by
  rcases stack with _ | ⟨first, stack⟩
  · cases hs
    cases hentry
  · by_cases hf : first = .parenthesis
    · subst hf
      rw [segments_opened] at hs
      cases hs
      cases hentry
    · obtain ⟨rest, others, hrest⟩ := exists_segments stack
      rw [segments_cons hrest hf] at hs
      cases hs
      exact hentry

namespace Segmented

theorem nil : Segmented [] := by
  intro segment hm
  obtain rfl := List.mem_singleton.mp hm
  exact .nil

theorem opened (h : Segmented stack) : Segmented (.parenthesis :: stack) := by
  rw [Segmented, segments_opened]
  exact List.forall_mem_cons.mpr ⟨.nil, h⟩

theorem tail (h : Segmented (entry :: stack)) : Segmented stack := by
  by_cases he : entry = .parenthesis
  · subst he
    rw [Segmented, segments_opened] at h
    exact (List.forall_mem_cons.mp h).2
  · obtain ⟨top, below, hs⟩ := exists_segments stack
    rw [Segmented, segments_cons hs he] at h
    rw [Segmented, hs]
    obtain ⟨htop, hbelow⟩ := List.forall_mem_cons.mp h
    exact List.forall_mem_cons.mpr ⟨htop.tail, hbelow⟩

theorem of_append {above : List Waiting} (h : Segmented (above ++ stack)) : Segmented stack := by
  induction above with
  | nil => exact h
  | cons entry above ih => exact ih h.tail

/-- A sign is put on an empty segment. -/
theorem signed (h : Segmented stack) (htop : (segments stack).head? = some []) :
    Segmented (.negation :: stack) := by
  obtain ⟨below, hs⟩ := List.head?_eq_some_iff.mp htop
  have hne : Waiting.negation ≠ .parenthesis := nofun
  rw [Segmented, hs] at h
  rw [Segmented, segments_cons hs hne]
  exact List.forall_mem_cons.mpr ⟨.negation, (List.forall_mem_cons.mp h).2⟩

/-- An operator is put on one that binds less tightly, if it is put on an operator. -/
theorem operation {operator : Operator} (h : Segmented stack)
    (hlow : ∀ top, stack.head? = some (.operation top) → top.precedence < operator.precedence) :
    Segmented (.operation operator :: stack) := by
  obtain ⟨top, below, hs⟩ := exists_segments stack
  have hne : Waiting.operation operator ≠ .parenthesis := nofun
  rw [Segmented, hs] at h
  rw [Segmented, segments_cons hs hne]
  obtain ⟨htop, hbelow⟩ := List.forall_mem_cons.mp h
  refine List.forall_mem_cons.mpr ⟨htop.cons fun other ho => ?_, hbelow⟩
  exact hlow other (head?_of_segments hs ho)

end Segmented

/-! ## The steps of the yard -/

namespace ShuntingYard

/-- Below the operators that leave for another one there is none that binds as tightly. -/
theorem precedence_lt_of_head?_drop {operator top : Operator} {stack : List Waiting}
    (h : (stack.drop (tighter operator stack).length).head? = some (.operation top)) :
    top.precedence < operator.precedence := by
  induction stack with
  | nil => cases h
  | cons first stack ih =>
    cases first with
    | negation => cases h
    | parenthesis => cases h
    | operation other =>
      rw [tighter] at h
      split at h
      · exact ih h
      · rename_i hle
        cases h
        omega

/-- Every mark leaves segments of the right shape, a sign if there is nothing yet in the innermost
one. -/
theorem segmented_add {yard after : ShuntingYard} {mark : Mark Value}
    (h : Segmented yard.stack) (hsign : mark = .sign → (segments yard.stack).head? = some [])
    (ha : yard.add mark = .ok after) : Segmented after.stack := by
  rw [eq_of yard] at ha
  cases mark with
  | operand value =>
    cases value with
    | literal value =>
      by_cases hs : yard.stack.head? = some .negation
      · obtain ⟨below, hbelow⟩ := List.head?_eq_some_iff.mp hs
        rw [hbelow] at h ha
        rw [add_literal_negation] at ha
        cases ha
        exact h.tail
      · rw [add_literal value hs] at ha
        cases ha
        exact h
    | answered value =>
      rw [add_answered] at ha
      cases ha
      exact h
  | call function =>
    cases ha
    exact h.opened
  | sign =>
    cases ha
    exact h.signed (hsign rfl)
  | operation operator =>
    rw [add_operation] at ha
    cases ha
    rw [← tighter_append_drop operator yard.stack] at h
    exact h.of_append.operation fun top ht => precedence_lt_of_head?_drop ht
  | opening =>
    cases ha
    exact h.opened
  | closing =>
    by_cases hp : .parenthesis ∈ yard.stack
    · obtain ⟨above, below, hs, habove⟩ := exists_innermost hp
      rw [hs] at h ha
      rw [add_closing habove] at ha
      cases ha
      exact h.of_append.tail
    · rw [add_closing_unopened hp] at ha
      cases ha

end ShuntingYard

end Calculator
