import Calculator.Proofs.Grammar.Recognition
import Calculator.Proofs.Yard.Groups
import Calculator.Proofs.Yard.Nesting

/-!
# What the yard preserves

However the yard orders its nodes, they weigh as much as the marks do, and an evaluation
succeeds only for nodes of weight one. Its open parentheses follow the levels of the
marks.
-/
namespace Calculator

/-- By how many doubles a node makes the stack of an evaluation longer. -/
def Node.weight : Node → Int
  | .number _ => 1
  | .operation _ => -1
  | _ => 0

def nodesWeight : List Node → Int
  | [] => 0
  | node :: nodes => node.weight + nodesWeight nodes

theorem nodesWeight_cons (node : Node) (nodes : List Node) :
    nodesWeight (node :: nodes) = node.weight + nodesWeight nodes := rfl

theorem nodesWeight_append (nodes more : List Node) :
    nodesWeight (nodes ++ more) = nodesWeight nodes + nodesWeight more := by
  induction nodes with
  | nil => exact (Int.zero_add _).symm
  | cons node nodes ih =>
    rw [List.cons_append, nodesWeight_cons, nodesWeight_cons, ih, Int.add_assoc]

theorem Node.length_of_evaluate {node : Node} {stack after : List Float}
    (h : node.evaluate stack = .ok after) : (after.length : Int) = stack.length + node.weight := by
  cases node with
  | number value =>
    cases h
    rfl
  | negation =>
    rcases stack with _ | ⟨value, stack⟩
    · cases h
    · cases h
      rfl
  | operation operator =>
    rcases stack with _ | ⟨right, _ | ⟨left, stack⟩⟩
    · cases h
    · cases h
    · cases h
      simp only [List.length_cons, weight]
      omega
  | call function =>
    rcases stack with _ | ⟨value, stack⟩
    · cases h
    · cases h
      rfl

theorem length_of_evaluateOn {nodes : List Node} :
    ∀ {stack after : List Float}, evaluateOn stack nodes = .ok after →
      (after.length : Int) = stack.length + nodesWeight nodes := by
  induction nodes with
  | nil =>
    intro stack after h
    cases h
    exact (Int.add_zero _).symm
  | cons node nodes ih =>
    intro stack after h
    change (node.evaluate stack).bind (evaluateOn · nodes) = .ok after at h
    cases hn : node.evaluate stack with
    | error failure =>
      rw [hn] at h
      cases h
    | ok between =>
      rw [hn] at h
      have hb := Node.length_of_evaluate hn
      have ha := ih h
      rw [nodesWeight_cons]
      omega

theorem nodesWeight_of_evaluate {nodes : List Node} {value : Float}
    (h : evaluate nodes = .ok value) : nodesWeight nodes = 1 := by
  rw [evaluate] at h
  cases hn : evaluateOn [] nodes with
  | error failure =>
    rw [hn] at h
    cases h
  | ok stack =>
    rw [hn] at h
    have hl := length_of_evaluateOn hn
    rcases stack with _ | ⟨last, _ | ⟨other, rest⟩⟩
    · cases h
    · simp at hl
      omega
    · cases h

namespace ShuntingYard

/-- The weight of all nodes that have left or are to leave. -/
def weight (yard : ShuntingYard) : Int :=
  nodesWeight yard.nodes + nodesWeight (yard.stack.filterMap Waiting.node?)

theorem weight_of (nodes : List Node) (stack : List Waiting) (functions : List NamedFunction) :
    (of nodes stack functions).weight =
      nodesWeight nodes + nodesWeight (stack.filterMap Waiting.node?) := by
  rw [weight, nodes_of, stack_of]

theorem nodesWeight_released (functions : List NamedFunction) :
    nodesWeight (released functions) = 0 := by
  cases functions <;> rfl

theorem nodesWeight_accompanied (leaving : List Node) :
    ∀ functions, nodesWeight (accompanied leaving functions) = nodesWeight leaving := by
  induction leaving with
  | nil => exact fun _ => rfl
  | cons node leaving ih =>
    intro functions
    rw [accompanied, nodesWeight_cons, nodesWeight_append, nodesWeight_released, ih,
      nodesWeight_cons, Int.zero_add]

theorem nodesWeight_nodes (value : Value) : nodesWeight value.nodes = 1 := by
  cases value with
  | literal number => rfl
  | answered number =>
    rw [Value.nodes]
    split <;> rfl

theorem filterMap_negation (stack : List Waiting) :
    (Waiting.negation :: stack).filterMap Waiting.node? =
      .negation :: stack.filterMap Waiting.node? := rfl

theorem filterMap_parenthesis (stack : List Waiting) :
    (Waiting.parenthesis :: stack).filterMap Waiting.node? = stack.filterMap Waiting.node? := rfl

theorem weight_add_operand {nodes : List Node} {stack : List Waiting}
    {functions : List NamedFunction} {value : Value} {after : ShuntingYard}
    (h : (of nodes stack functions).add (.operand value) = .ok after) :
    after.weight = (of nodes stack functions).weight + 1 := by
  obtain ⟨number, rest, rfl, rfl⟩ | hne := behindSign_or_not value stack
  · rw [add_literal_negation] at h
    cases h
    rw [weight_of, weight_of, nodesWeight_append, nodesWeight_append, nodesWeight_released,
      filterMap_negation]
    have hone : nodesWeight [.number number, .negation] = 1 := rfl
    have hzero : Node.negation.weight = 0 := rfl
    have hrest := nodesWeight_cons .negation (rest.filterMap Waiting.node?)
    omega
  · rw [add_value value hne] at h
    cases h
    rw [weight_of, weight_of, nodesWeight_append, nodesWeight_append, nodesWeight_released,
      nodesWeight_nodes]
    omega

theorem weight_addOperator (yard : ShuntingYard) (operator : Operator) :
    (yard.addOperator operator).weight = yard.weight + -1 := by
  have hs := congrArg (List.filterMap Waiting.node?) (tighter_append_drop operator yard.stack)
  rw [List.filterMap_append, filterMap_node?_map] at hs
  have hn : (yard.addOperator operator).nodes =
      yard.nodes ++ (tighter operator yard.stack).map Node.operation := by
    rw [nodes, nodes, addOperator, List.reverse_append, List.reverse_reverse]
  have hstack : (yard.addOperator operator).stack.filterMap Waiting.node? =
      .operation operator ::
        (yard.stack.drop (tighter operator yard.stack).length).filterMap Waiting.node? :=
    List.filterMap_cons_some rfl
  rw [weight, weight, hn, hstack, ← hs, nodesWeight_append, nodesWeight_append, nodesWeight_cons]
  change _ + (-1 + _) = _
  omega

theorem weight_closing {nodes : List Node} {stack : List Waiting} {functions : List NamedFunction}
    {after : ShuntingYard} (h : (of nodes stack functions).add .closing = .ok after) :
    after.weight = (of nodes stack functions).weight := by
  by_cases hp : .parenthesis ∈ stack
  · obtain ⟨above, below, rfl, ha⟩ := exists_innermost hp
    rw [add_closing ha] at h
    cases h
    rw [weight_of, weight_of, nodesWeight_append, nodesWeight_accompanied, List.filterMap_append,
      nodesWeight_append, filterMap_parenthesis]
    omega
  · rw [add_closing_unopened hp] at h
    cases h

theorem weight_sign (nodes : List Node) (stack : List Waiting) (functions : List NamedFunction) :
    (of nodes (.negation :: stack) functions).weight = (of nodes stack functions).weight := by
  rw [weight_of, weight_of, filterMap_negation, nodesWeight_cons]
  exact congrArg _ (Int.zero_add _)

/-- A mark changes the weight of the yard by its own. -/
theorem weight_add {yard after : ShuntingYard} {mark : Mark Value} (h : yard.add mark = .ok after) :
    after.weight = yard.weight + mark.weight := by
  rw [eq_of yard] at h ⊢
  cases mark with
  | operand value => exact weight_add_operand h
  | call function =>
    cases h
    exact (Int.add_zero _).symm
  | sign =>
    cases h
    exact (weight_sign _ _ _).trans (Int.add_zero _).symm
  | operation operator =>
    cases h
    exact weight_addOperator _ operator
  | opening =>
    cases h
    exact (Int.add_zero _).symm
  | closing => exact (weight_closing h).trans (Int.add_zero _).symm

theorem weight_of_finish {yard : ShuntingYard} {nodes : List Node} (h : yard.finish = .ok nodes) :
    nodesWeight nodes = yard.weight := by
  by_cases hp : .parenthesis ∈ yard.stack
  · rw [eq_of yard, finish_unclosed hp] at h
    cases h
  · rw [eq_of yard, finish_of hp] at h
    cases h
    have hf : nodesWeight (yard.functions.map Node.call) = 0 := by
      induction yard.functions with
      | nil => rfl
      | cons function functions ih => rw [List.map_cons, nodesWeight_cons, ih]; rfl
    rw [nodesWeight_append, nodesWeight_append, hf, Int.add_zero, weight]

/-- The depth of the yard is the level of the marks. -/
theorem level?_add {yard after : ShuntingYard} {mark : Mark Value} (h : yard.add mark = .ok after) :
    level? yard.depth [mark] = some after.depth := by
  have hplain : mark.opens = false → mark ≠ .closing → after.depth = yard.depth := by
    intro ho hc
    obtain ⟨other, ha, hd⟩ := yard.exists_add_plain mark ho hc
    rw [h] at ha
    cases ha
    exact hd
  have hopens : mark.opens = true → after.depth = yard.depth + 1 := by
    intro ho
    obtain ⟨other, ha, hd⟩ := yard.exists_add_opens mark ho
    rw [h] at ha
    cases ha
    exact hd
  cases mark with
  | operand value => exact congrArg some (hplain rfl nofun).symm
  | sign => exact congrArg some (hplain rfl nofun).symm
  | operation operator => exact congrArg some (hplain rfl nofun).symm
  | call function => exact congrArg some (hopens rfl).symm
  | opening => exact congrArg some (hopens rfl).symm
  | closing =>
    cases hd : yard.depth with
    | zero =>
      rw [add_closing_of_depth_eq_zero hd] at h
      cases h
    | succ outside =>
      have hpos : 0 < yard.depth := by omega
      obtain ⟨other, ha, hdepth⟩ := exists_add_closing hpos
      rw [h] at ha
      cases ha
      have ho : outside = after.depth := by omega
      rw [ho]
      rfl

theorem addAll_preserves {marks : List (Mark Value)} :
    ∀ {yard after : ShuntingYard}, yard.addAll marks = .ok after →
      after.weight = yard.weight + Calculator.weight marks ∧
        level? yard.depth marks = some after.depth := by
  induction marks with
  | nil =>
    intro yard after h
    cases h
    exact ⟨(Int.add_zero _).symm, rfl⟩
  | cons mark marks ih =>
    intro yard after h
    rw [addAll_cons] at h
    cases ha : yard.add mark with
    | error failure =>
      rw [ha] at h
      cases h
    | ok next =>
      rw [ha] at h
      obtain ⟨hw, hl⟩ := ih h
      constructor
      · rw [hw, weight_add ha, weight_cons, Int.add_assoc]
      · rw [level?_cons, level?_add ha]
        exact hl

/-- Marks that end in a postfix expression with a value weigh one, and all their groups are
closed. -/
theorem weight_and_level_of_evaluate {marks : List (Mark Value)} {yard : ShuntingYard}
    {nodes : List Node} {value : Float} (ha : empty.addAll marks = .ok yard)
    (hf : yard.finish = .ok nodes) (he : evaluate nodes = .ok value) :
    Calculator.weight marks = 1 ∧ level? 0 marks = some 0 := by
  obtain ⟨hw, hl⟩ := addAll_preserves ha
  have hone := nodesWeight_of_evaluate he
  rw [weight_of_finish hf, hw] at hone
  have hd : yard.depth = 0 := by
    by_contra hd
    rw [finish_of_depth_pos (Nat.pos_of_ne_zero hd)] at hf
    cases hf
  rw [hd] at hl
  exact ⟨(Int.zero_add _).symm.trans hone, hl⟩

end ShuntingYard

end Calculator
