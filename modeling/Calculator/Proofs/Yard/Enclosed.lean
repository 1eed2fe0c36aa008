import Calculator.Proofs.Yard.Groups
import Calculator.Proofs.Yard.Nesting

/-!
# A yard inside another

What a yard does from empty on, it does in the same way inside an open parenthesis: the
nodes that left before and the stack below the parenthesis have no part in it. If no
function waits at the end, the closing parenthesis lets leave what the end would.
-/
namespace Calculator.ShuntingYard

variable {outside : List Node} {base : List Waiting}

/-- The yard inside an open parenthesis, above these nodes and this stack. -/
def within (outside : List Node) (base : List Waiting) (yard : ShuntingYard) : ShuntingYard :=
  of (outside ++ yard.nodes) (yard.stack ++ .parenthesis :: base) yard.functions

theorem within_of (nodes : List Node) (stack : List Waiting) (functions : List NamedFunction) :
    (of nodes stack functions).within outside base =
      of (outside ++ nodes) (stack ++ .parenthesis :: base) functions := by
  rw [within, nodes_of, stack_of, functions_of]

theorem within_empty : empty.within outside base = of outside (.parenthesis :: base) [] := by
  rw [empty_eq_of, within_of, List.append_nil, List.nil_append]

theorem tighter_append_parenthesis (operator : Operator) (stack : List Waiting) :
    tighter operator (stack ++ .parenthesis :: base) = tighter operator stack := by
  induction stack with
  | nil => rfl
  | cons top stack ih =>
    cases top with
    | negation => rfl
    | parenthesis => rfl
    | operation other => rw [List.cons_append, tighter, tighter, ih]

theorem length_tighter_le (operator : Operator) (stack : List Waiting) :
    (tighter operator stack).length ≤ stack.length := by
  have h := congrArg List.length (tighter_append_drop operator stack)
  rw [List.length_append, List.length_map, List.length_drop] at h
  omega

theorem head?_ne_negation_within {stack : List Waiting} (h : stack.head? ≠ some .negation) :
    (stack ++ .parenthesis :: base).head? ≠ some .negation := by
  cases stack with
  | nil => nofun
  | cons top stack => exact h

/-- A mark does the same inside as outside. -/
theorem add_within {yard after : ShuntingYard} {mark : Mark Value} (h : yard.add mark = .ok after) :
    (yard.within outside base).add mark = .ok (after.within outside base) := by
  rw [eq_of yard] at h ⊢
  rw [within_of]
  cases mark with
  | operand value =>
    obtain ⟨number, rest, rfl, hr⟩ | hne := behindSign_or_not value yard.stack
    · rw [hr] at h ⊢
      rw [add_literal_negation] at h
      cases h
      rw [List.cons_append, add_literal_negation, within_of]
      simp only [List.append_assoc]
    · rw [add_value value hne] at h
      cases h
      rw [add_value value fun number hv => head?_ne_negation_within (hne number hv), within_of]
      simp only [List.append_assoc]
  | call function =>
    rw [add_call] at h
    cases h
    rw [add_call, within_of]
    rfl
  | sign =>
    rw [add_sign] at h
    cases h
    rw [add_sign, within_of]
    rfl
  | opening =>
    rw [add_opening] at h
    cases h
    rw [add_opening, within_of]
    rfl
  | operation operator =>
    rw [add_operation] at h
    cases h
    rw [add_operation, tighter_append_parenthesis, within_of,
      List.drop_append_of_le_length (length_tighter_le operator yard.stack)]
    simp only [List.append_assoc, List.cons_append]
  | closing =>
    by_cases hp : .parenthesis ∈ yard.stack
    · obtain ⟨above, below, hs, ha⟩ := exists_innermost hp
      rw [hs] at h ⊢
      rw [add_closing ha] at h
      cases h
      rw [List.append_assoc, List.cons_append, add_closing ha, within_of]
      simp only [List.append_assoc]
    · rw [add_closing_unopened hp] at h
      cases h

theorem addAll_within {marks : List (Mark Value)} :
    ∀ {yard after : ShuntingYard}, yard.addAll marks = .ok after →
      (yard.within outside base).addAll marks = .ok (after.within outside base) := by
  induction marks with
  | nil =>
    intro yard after h
    cases h
    rfl
  | cons mark marks ih =>
    intro yard after h
    rw [addAll_cons] at h
    cases ha : yard.add mark with
    | error failure =>
      rw [ha] at h
      cases h
    | ok next =>
      rw [ha] at h
      rw [addAll_cons_of_eq (add_within ha)]
      exact ih h

/-- Where no function waits, a closing parenthesis is the end of what it encloses. -/
theorem add_closing_within {yard : ShuntingYard} {nodes : List Node} (hf : yard.functions = [])
    (h : yard.finish = .ok nodes) :
    (yard.within outside base).add .closing = .ok (of (outside ++ nodes) base []) := by
  by_cases hp : .parenthesis ∈ yard.stack
  · rw [eq_of yard, finish_unclosed hp] at h
    cases h
  · rw [eq_of yard, finish_of hp, hf, List.map_nil, List.append_nil] at h
    cases h
    rw [within, add_closing hp, hf, accompanied_nil, List.drop_nil, List.append_assoc]

/-- Marks between two parentheses let leave what they let leave alone. -/
theorem addAll_between_parentheses {marks : List (Mark Value)} {yard : ShuntingYard}
    {nodes : List Node} (h : empty.addAll marks = .ok yard) (hf : yard.functions = [])
    (hfinish : yard.finish = .ok nodes) :
    (of outside base []).addAll (.opening :: marks ++ [.closing]) =
      .ok (of (outside ++ nodes) base []) := by
  have hinner : (empty.within outside base).addAll marks = .ok (yard.within outside base) :=
    addAll_within h
  rw [within_empty] at hinner
  rw [List.cons_append, addAll_cons_of_eq add_opening, addAll_append_of_eq hinner,
    addAll_cons_of_eq (add_closing_within hf hfinish)]
  rfl

end Calculator.ShuntingYard
