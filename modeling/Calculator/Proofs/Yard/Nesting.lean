import Calculator.Proofs.Yard.Steps

/-!
# The nesting of the yard

The open parentheses on the stack count how deep the marks have opened groups. Only a
closing parenthesis can be refused, and exactly when no group is open.
-/
namespace Calculator.ShuntingYard

/-- How many groups are open. -/
def depth (yard : ShuntingYard) : Nat :=
  yard.stack.count .parenthesis

theorem tighter_append_drop (operator : Operator) (stack : List Waiting) :
    (tighter operator stack).map Waiting.operation ++ stack.drop (tighter operator stack).length =
      stack := by
  induction stack with
  | nil => rfl
  | cons top stack ih =>
    cases top with
    | negation => rfl
    | parenthesis => rfl
    | operation other =>
      rw [tighter]
      split
      · rw [List.map_cons, List.length_cons, List.drop_succ_cons, List.cons_append, ih]
      · rfl

theorem count_parenthesis_map (operators : List Operator) :
    (operators.map Waiting.operation).count .parenthesis = 0 := by
  rw [List.count_eq_zero]
  intro h
  obtain ⟨operator, -, he⟩ := List.mem_map.mp h
  cases he

theorem depth_addOperator (yard : ShuntingYard) (operator : Operator) :
    (yard.addOperator operator).depth = yard.depth := by
  have hs := congrArg (List.count .parenthesis) (tighter_append_drop operator yard.stack)
  rw [List.count_append, count_parenthesis_map, Nat.zero_add] at hs
  rw [depth, depth, addOperator, List.count_cons_of_ne (fun h => by cases h)]
  exact hs

/-- A mark that neither opens nor closes leaves the depth. -/
theorem exists_add_plain (yard : ShuntingYard) (mark : Mark Value) (ho : mark.opens = false)
    (hc : mark ≠ .closing) : ∃ after, yard.add mark = .ok after ∧ after.depth = yard.depth := by
  rw [eq_of yard]
  cases mark with
  | operand value =>
    cases value with
    | literal value =>
      rcases hs : yard.stack with _ | ⟨top, stack⟩
      · exact ⟨_, add_literal value (by simp), rfl⟩
      · cases top with
        | negation => exact ⟨_, add_literal_negation value, by simp [depth]⟩
        | operation operator => exact ⟨_, add_literal value (by simp), rfl⟩
        | parenthesis => exact ⟨_, add_literal value (by simp), rfl⟩
    | answered value => exact ⟨_, add_answered value, rfl⟩
  | call function => cases ho
  | sign => exact ⟨_, add_sign, by simp [depth]⟩
  | operation operator => exact ⟨_, rfl, depth_addOperator _ operator⟩
  | opening => cases ho
  | closing => exact absurd rfl hc

theorem exists_add_opens (yard : ShuntingYard) (mark : Mark Value) (ho : mark.opens = true) :
    ∃ after, yard.add mark = .ok after ∧ after.depth = yard.depth + 1 := by
  cases mark with
  | call function => exact ⟨_, rfl, by simp [depth, openCall, push]⟩
  | opening => exact ⟨_, rfl, by simp [depth, openGroup, push]⟩
  | operand value => cases ho
  | sign => cases ho
  | operation operator => cases ho
  | closing => cases ho

theorem exists_add_closing {yard : ShuntingYard} (h : 0 < yard.depth) :
    ∃ after, yard.add .closing = .ok after ∧ after.depth + 1 = yard.depth := by
  obtain ⟨above, below, hs, ha⟩ := exists_innermost (List.count_pos_iff.mp h)
  rw [eq_of yard, hs]
  refine ⟨_, add_closing ha, ?_⟩
  rw [depth, depth, stack_of, stack_of, List.count_append, List.count_eq_zero.mpr ha,
    List.count_cons_self, Nat.zero_add]

theorem add_closing_of_depth_eq_zero {yard : ShuntingYard} (h : yard.depth = 0) :
    yard.add .closing = .error .unopenedParenthesis := by
  rw [eq_of yard]
  exact add_closing_unopened (List.count_eq_zero.mp h)

theorem exists_finish {yard : ShuntingYard} (h : yard.depth = 0) :
    ∃ nodes, yard.finish = .ok nodes := by
  rw [eq_of yard]
  exact ⟨_, finish_of (List.count_eq_zero.mp h)⟩

theorem finish_of_depth_pos {yard : ShuntingYard} (h : 0 < yard.depth) :
    yard.finish = .error .unclosedParenthesis := by
  rw [eq_of yard]
  exact finish_unclosed (List.count_pos_iff.mp h)

end Calculator.ShuntingYard
