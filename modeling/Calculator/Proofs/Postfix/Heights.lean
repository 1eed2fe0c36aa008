import Calculator.Proofs.Yard.Inventory

/-!
# The heights of an evaluation

Before a node the stack of an evaluation is as high as there are numbers before it, less
the operators. The first node that takes more than that ends the evaluation and gives its
name to the failure. If there is none, the last height decides. What the numbers are has
no part in it.
-/
namespace Calculator

/-- How high nodes make an empty stack: their numbers, less their operators. -/
def height (nodes : List Node) : Int :=
  (numbers nodes).length - (nodes.filterMap Node.operation?).length

theorem height_append (nodes more : List Node) :
    height (nodes ++ more) = height nodes + height more := by
  simp only [height, numbers_append, List.filterMap_append, List.length_append]
  omega

theorem height_singleton (node : Node) : height [node] = node.weight := by
  cases node <;> rfl

/-- Every node has as many numbers below it as it takes. -/
def Supplied (nodes : List Node) : Prop :=
  ∀ before node behind, nodes = before ++ node :: behind → (node.arity : Int) ≤ height before

/-- The node is the first that takes more than there is. -/
def LacksFirst (nodes : List Node) (node : Node) : Prop :=
  ∃ before behind, nodes = before ++ node :: behind ∧ Supplied before ∧
    height before < node.arity

theorem supplied_nil : Supplied [] := by
  intro before node behind h
  exact absurd h.symm (List.append_ne_nil_of_right_ne_nil _ (List.cons_ne_nil _ _))

theorem supplied_concat_iff {nodes : List Node} {node : Node} :
    Supplied (nodes ++ [node]) ↔ Supplied nodes ∧ (node.arity : Int) ≤ height nodes := by
  constructor
  · intro h
    refine ⟨fun before other behind hs => ?_, h nodes node [] rfl⟩
    exact h before other (behind ++ [node]) (by rw [hs, List.append_assoc, List.cons_append])
  · rintro ⟨h, hnode⟩ before other behind hs
    rcases List.eq_nil_or_concat behind with rfl | ⟨rest, last, rfl⟩
    · obtain ⟨rfl, hlast⟩ := List.append_inj' hs rfl
      cases hlast
      exact hnode
    · rw [List.concat_eq_append, ← List.cons_append, ← List.append_assoc] at hs
      exact h before other rest (List.append_inj' hs rfl).1

/-- The induction is from the right: a further node has all others before it. -/
theorem supplied_or_lacksFirst (nodes : List Node) :
    Supplied nodes ∨ ∃ node, LacksFirst nodes node := by
  induction nodes using List.reverseRecOn with
  | nil => exact .inl supplied_nil
  | append_singleton nodes node ih =>
    obtain h | ⟨first, before, behind, rfl, h, hlt⟩ := ih
    · by_cases hn : (node.arity : Int) ≤ height nodes
      · exact .inl (supplied_concat_iff.mpr ⟨h, hn⟩)
      · exact .inr ⟨node, nodes, [], rfl, h, Int.not_le.mp hn⟩
    · refine .inr ⟨first, before, behind ++ [node], ?_, h, hlt⟩
      rw [List.append_assoc, List.cons_append]

/-! ## One node and a row of nodes -/

theorem Node.evaluate_of_lt {node : Node} {stack : List Float} (h : stack.length < node.arity) :
    node.evaluate stack = .error (.missingOperand node) := by
  cases node with
  | number value => exact absurd h (Nat.not_lt_zero _)
  | negation =>
    obtain rfl := List.length_eq_zero_iff.mp (Nat.lt_one_iff.mp h)
    rfl
  | operation operator =>
    -- A stack of one double loses it before the second operand is missed.
    rcases stack with _ | ⟨right, _ | ⟨left, stack⟩⟩
    · rfl
    · rfl
    · exact absurd h (Nat.not_lt.mpr (Nat.le_add_left 2 stack.length))
  | call function =>
    obtain rfl := List.length_eq_zero_iff.mp (Nat.lt_one_iff.mp h)
    rfl

theorem Node.exists_evaluate {node : Node} {stack : List Float} (h : node.arity ≤ stack.length) :
    ∃ after, node.evaluate stack = .ok after := by
  cases node with
  | number value => exact ⟨_, rfl⟩
  | negation =>
    obtain ⟨value, rest, rfl⟩ := List.exists_cons_of_length_pos h
    exact ⟨_, rfl⟩
  | operation operator =>
    obtain ⟨right, rest, rfl⟩ := List.exists_cons_of_length_pos (Nat.lt_of_succ_lt h)
    obtain ⟨left, rest, rfl⟩ := List.exists_cons_of_length_pos (Nat.le_of_succ_le_succ h)
    exact ⟨_, rfl⟩
  | call function =>
    obtain ⟨value, rest, rfl⟩ := List.exists_cons_of_length_pos h
    exact ⟨_, rfl⟩

theorem Supplied.exists_evaluateOn {nodes : List Node} (h : Supplied nodes) :
    ∃ stack, evaluateOn [] nodes = .ok stack ∧ (stack.length : Int) = height nodes := by
  induction nodes using List.reverseRecOn with
  | nil => exact ⟨[], rfl, rfl⟩
  | append_singleton nodes node ih =>
    obtain ⟨hnodes, hnode⟩ := supplied_concat_iff.mp h
    obtain ⟨stack, hs, hheight⟩ := ih hnodes
    have harity : node.arity ≤ stack.length := by omega
    obtain ⟨after, ha⟩ := Node.exists_evaluate harity
    refine ⟨after, ?_, ?_⟩
    · rw [Tree.evaluateOn_append, hs]
      change (node.evaluate stack).bind pure = _
      rw [ha]
      rfl
    · rw [height_append, height_singleton, Node.length_of_evaluate ha, hheight]

theorem LacksFirst.evaluate {nodes : List Node} {node : Node} (h : LacksFirst nodes node) :
    evaluate nodes = .error (.missingOperand node) := by
  obtain ⟨before, behind, rfl, hbefore, hlt⟩ := h
  obtain ⟨stack, hs, hheight⟩ := hbefore.exists_evaluateOn
  rw [Calculator.evaluate, Tree.evaluateOn_append, hs]
  change ((node.evaluate stack).bind (evaluateOn · behind)).bind result = _
  rw [Node.evaluate_of_lt (by omega)]
  rfl

theorem LacksFirst.not_supplied {nodes : List Node} {node : Node} (h : LacksFirst nodes node) :
    ¬ Supplied nodes := by
  obtain ⟨before, behind, hs, -, hlt⟩ := h
  exact fun hall => Int.not_le.mpr hlt (hall before node behind hs)

/-- The three ends of an evaluation, each with the heights that lead to it. -/
inductive Concludes (nodes : List Node) : Except Failure Float → Prop
  | missing {node : Node} (lacks : LacksFirst nodes node) :
      Concludes nodes (.error (.missingOperand node))
  | single {value : Float} (supplied : Supplied nodes) (last : height nodes = 1) :
      Concludes nodes (.ok value)
  | count {count : Nat} (supplied : Supplied nodes) (last : height nodes = count)
      (several : count ≠ 1) : Concludes nodes (.error (.resultCount count))

theorem concludes_evaluate (nodes : List Node) : Concludes nodes (evaluate nodes) := by
  obtain h | ⟨node, h⟩ := supplied_or_lacksFirst nodes
  · obtain ⟨stack, hs, hheight⟩ := h.exists_evaluateOn
    rw [evaluate, hs]
    rcases stack with _ | ⟨value, _ | ⟨other, stack⟩⟩
    · exact .count h hheight.symm Nat.zero_ne_one
    · exact .single h hheight.symm
    · exact .count h hheight.symm (Nat.succ_succ_ne_one _)
  · rw [h.evaluate]
    exact .missing h

/-! ## Values -/

/-- A node apart from the number that it may be. -/
def Node.shape : Node → Option Node
  | number _ => none
  | node => some node

theorem Node.eq_of_shape_eq {node other : Node} (h : node.shape = other.shape) :
    node = other ∨ ∃ value number, node = .number value ∧ other = .number number := by
  cases node with
  | number value =>
    cases other with
    | number number => exact .inr ⟨value, number, rfl, rfl⟩
    | _ => cases h
  | _ =>
    cases other with
    | number number => cases h
    | _ => exact .inl (Option.some.inj h)

theorem Node.evaluate_length (node : Node) {stack rest : List Float}
    (h : stack.length = rest.length) :
    (node.evaluate stack).map List.length = (node.evaluate rest).map List.length := by
  by_cases ha : node.arity ≤ stack.length
  · obtain ⟨after, hs⟩ := exists_evaluate ha
    obtain ⟨behind, hr⟩ := exists_evaluate (h ▸ ha)
    have hsl := length_of_evaluate hs
    have hrl := length_of_evaluate hr
    rw [hs, hr]
    exact congrArg Except.ok (by omega)
  · rw [evaluate_of_lt (Nat.not_le.mp ha), evaluate_of_lt (h ▸ Nat.not_le.mp ha)]

/-- Nodes of one shape take and leave the same on stacks of one height. -/
theorem Node.evaluate_of_shape {node other : Node} (h : node.shape = other.shape)
    {stack rest : List Float} (hl : stack.length = rest.length) :
    (node.evaluate stack).map List.length = (other.evaluate rest).map List.length := by
  obtain rfl | ⟨value, number, rfl, rfl⟩ := eq_of_shape_eq h
  · exact node.evaluate_length hl
  · exact congrArg (fun length => Except.ok (length + 1)) hl

theorem evaluateOn_of_shape {nodes : List Node} :
    ∀ {others : List Node} {stack rest : List Float},
      nodes.map Node.shape = others.map Node.shape → stack.length = rest.length →
        (evaluateOn stack nodes).map List.length = (evaluateOn rest others).map List.length := by
  induction nodes with
  | nil =>
    intro others stack rest h hl
    obtain rfl := List.map_eq_nil_iff.mp h.symm
    exact congrArg Except.ok hl
  | cons node nodes ih =>
    intro others stack rest h hl
    obtain ⟨other, others, rfl, hnode, hnodes⟩ := List.map_eq_cons_iff.mp h.symm
    have hstep := Node.evaluate_of_shape hnode.symm hl
    change ((node.evaluate stack).bind (evaluateOn · nodes)).map _ =
      ((other.evaluate rest).bind (evaluateOn · others)).map _
    rcases hs : node.evaluate stack with failure | after <;>
      rcases hr : other.evaluate rest with cause | behind <;> rw [hs, hr] at hstep
    · exact congrArg Except.error (Except.error.inj hstep)
    · cases hstep
    · cases hstep
    · exact ih hnodes.symm (Except.ok.inj hstep)

/-- How an evaluation ends, apart from the value. -/
def verdict (nodes : List Node) : Except Failure Unit :=
  (evaluate nodes).map fun _ => ()

theorem verdict_of_evaluateOn {nodes : List Node} {stack : List Float}
    (h : evaluateOn [] nodes = .ok stack) : verdict nodes =
      if stack.length = 1 then .ok () else .error (.resultCount stack.length) := by
  rw [verdict, evaluate, h]
  rcases stack with _ | ⟨value, _ | ⟨other, stack⟩⟩
  · rfl
  · rfl
  · exact (if_neg (Nat.succ_succ_ne_one _)).symm

theorem verdict_of_shape {nodes others : List Node}
    (h : nodes.map Node.shape = others.map Node.shape) : verdict nodes = verdict others := by
  have hlength := @evaluateOn_of_shape nodes others [] [] h rfl
  rcases hs : evaluateOn [] nodes with failure | stack <;>
    rcases hr : evaluateOn [] others with cause | rest <;> rw [hs, hr] at hlength
  · rw [verdict, verdict, evaluate, evaluate, hs, hr]
    exact congrArg Except.error (Except.error.inj hlength)
  · cases hlength
  · cases hlength
  · rw [verdict_of_evaluateOn hs, verdict_of_evaluateOn hr, Except.ok.inj hlength]

/-- The heights alone decide how an evaluation ends. It misses an operand exactly if some node takes
more than there is before it, and the first such node is named; otherwise it has a value exactly
if the last height is one, and any other height is told. Nodes that differ in their numbers only
end alike. -/
theorem evaluate_decided_by_heights (nodes : List Node) :
    (∀ node, evaluate nodes = .error (.missingOperand node) ↔ LacksFirst nodes node) ∧
    (∀ count : Nat, evaluate nodes = .error (.resultCount count) ↔
      Supplied nodes ∧ height nodes = count ∧ count ≠ 1) ∧
    ((∃ value, evaluate nodes = .ok value) ↔ Supplied nodes ∧ height nodes = 1) ∧
    (∀ failure, evaluate nodes = .error failure →
      (∃ node, failure = .missingOperand node ∧
        failure.message = "'" ++ node.text ++ "' is missing an operand") ∨
      ∃ count, failure = .resultCount count) ∧
    ∀ others : List Node, nodes.map Node.shape = others.map Node.shape →
      verdict nodes = verdict others := by
  have hends := concludes_evaluate nodes
  refine ⟨?missing, ?count, ?value, ?failures, fun others => verdict_of_shape⟩
  case missing =>
    intro node
    refine ⟨fun h => ?_, LacksFirst.evaluate⟩
    rw [h] at hends
    cases hends with
    | missing lacks => exact lacks
  case count =>
    intro count
    constructor
    · intro h
      rw [h] at hends
      cases hends with
      | count supplied last several => exact ⟨supplied, last, several⟩
    · rintro ⟨hsupplied, hlast, hne⟩
      generalize evaluate nodes = outcome at hends ⊢
      cases hends with
      | missing lacks => exact absurd hsupplied lacks.not_supplied
      | single supplied last => exact absurd (by omega) hne
      | count supplied last several =>
        obtain rfl := Int.ofNat.inj (last.symm.trans hlast)
        rfl
  case value =>
    constructor
    · rintro ⟨value, h⟩
      rw [h] at hends
      cases hends with
      | single supplied last => exact ⟨supplied, last⟩
    · rintro ⟨hsupplied, hlast⟩
      generalize evaluate nodes = outcome at hends ⊢
      cases hends with
      | missing lacks => exact absurd hsupplied lacks.not_supplied
      | @single value supplied last => exact ⟨value, rfl⟩
      | count supplied last several => exact absurd (by omega) several
  case failures =>
    intro failure h
    rw [h] at hends
    cases hends with
    | @missing node lacks => exact .inl ⟨node, rfl, rfl⟩
    | @count count supplied last several => exact .inr ⟨count, rfl⟩

end Calculator
