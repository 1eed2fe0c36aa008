import Calculator.Proofs.Yard.Enclosed

/-!
# A yard on top of a stack

An open parenthesis hides what is below it. A number looks for its sign, an operator for
tighter ones and a closing parenthesis for what has to leave, and none of them looks past
the innermost open one. What is below may therefore be exchanged, and so may the nodes
that have left before.
-/
namespace Calculator.ShuntingYard

variable {outside : List Node} {above base : List Waiting} {yard after : ShuntingYard}
  {mark : Mark Value}

/-- The yard with these nodes gone before its own and this stack below its own. -/
def atop (outside : List Node) (base : List Waiting) (yard : ShuntingYard) : ShuntingYard :=
  of (outside ++ yard.nodes) (yard.stack ++ base) yard.functions

theorem atop_of (nodes : List Node) (stack : List Waiting) (functions : List NamedFunction) :
    (of nodes stack functions).atop outside base =
      of (outside ++ nodes) (stack ++ base) functions := by
  rw [atop, nodes_of, stack_of, functions_of]

theorem atop_within (below : List Waiting) (yard : ShuntingYard) :
    (yard.within [] below).atop outside base = yard.within outside (below ++ base) := by
  rw [within, atop_of, within, List.nil_append, List.append_assoc, List.cons_append]

theorem exists_add_of_ne_closing (yard : ShuntingYard) (h : mark ≠ .closing) :
    ∃ after, yard.add mark = .ok after := by
  cases ho : mark.opens with
  | true =>
    obtain ⟨after, ha, -⟩ := yard.exists_add_opens mark ho
    exact ⟨after, ha⟩
  | false =>
    obtain ⟨after, ha, -⟩ := yard.exists_add_plain mark ho h
    exact ⟨after, ha⟩

theorem eq_within (h : yard.stack = above ++ .parenthesis :: base) :
    yard = (of yard.nodes above yard.functions).within [] base := by
  rw [within_of, List.nil_append, ← h]
  exact eq_of yard

/-- Where a parenthesis is open, a mark does the same on top of any stack. -/
theorem add_atop (h : .parenthesis ∈ yard.stack) (mark : Mark Value) :
    (yard.atop outside base).add mark = (yard.add mark).map (atop outside base) := by
  obtain ⟨above, below, hs, habove⟩ := exists_innermost h
  by_cases hc : mark = .closing
  · subst hc
    rw [eq_of yard, hs, atop_of, List.append_assoc, List.cons_append, add_closing habove,
      add_closing habove, Except.map, atop_of, List.append_assoc]
  · obtain ⟨inner, ha⟩ := (of yard.nodes above yard.functions).exists_add_of_ne_closing hc
    rw [eq_within hs, atop_within, add_within ha, add_within ha, Except.map, atop_within]

/-- An open parenthesis stays where it is, with all that is below, unless it is itself closed. -/
theorem exists_above_of_add (hs : yard.stack = above ++ .parenthesis :: base)
    (hclosing : mark = .closing → .parenthesis ∈ above) (ha : yard.add mark = .ok after) :
    ∃ rest, after.stack = rest ++ .parenthesis :: base := by
  have hinner : ∃ inner, (of yard.nodes above yard.functions).add mark = .ok inner := by
    by_cases hc : mark = .closing
    · have hpos : 0 < (of yard.nodes above yard.functions).depth :=
        List.count_pos_iff.mpr (hclosing hc)
      obtain ⟨inner, hi, -⟩ := exists_add_closing hpos
      exact ⟨inner, hc ▸ hi⟩
    · exact exists_add_of_ne_closing _ hc
  obtain ⟨inner, hi⟩ := hinner
  rw [eq_within hs, add_within hi] at ha
  cases ha
  exact ⟨inner.stack, rfl⟩

/-- The innermost open parenthesis is closed with all that is above. -/
theorem stack_of_add_closing (hs : yard.stack = above ++ .parenthesis :: base)
    (habove : .parenthesis ∉ above) (ha : yard.add .closing = .ok after) : after.stack = base := by
  rw [eq_of yard, hs, add_closing habove] at ha
  cases ha
  rfl

end Calculator.ShuntingYard
