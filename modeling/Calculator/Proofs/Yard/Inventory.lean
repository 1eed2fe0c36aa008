import Calculator.Proofs.Yard.Unnamed
import Calculator.Proofs.Yard.Weight

/-!
# What a yard holds

Every mark brings its nodes into the yard. A node has left, or it waits, or it is a waiting
function, and whatever moves between the three, each node is held as often as the marks
have brought it. The numbers leave in the order of their marks.
-/
namespace Calculator

namespace Node

def number? : Node → Option Float
  | number value => some value
  | _ => none

def operation? : Node → Option Operator
  | operation operator => some operator
  | _ => none

def call? : Node → Option NamedFunction
  | call function => some function
  | _ => none

end Node

/-- The numbers among the nodes, in their order. -/
def numbers (nodes : List Node) : List Float :=
  nodes.filterMap Node.number?

theorem numbers_append (nodes more : List Node) :
    numbers (nodes ++ more) = numbers nodes ++ numbers more :=
  List.filterMap_append

theorem numbers_withoutCalls (nodes : List Node) :
    numbers (withoutCalls nodes) = numbers nodes := by
  rw [numbers, withoutCalls, List.filterMap_filter]
  congr 1
  funext node
  cases node <;> rfl

/-- The nodes that a mark brings. -/
def Mark.nodes : Mark Value → List Node
  | .operand value => value.nodes
  | .call function => [.call function]
  | .sign => [.negation]
  | .operation operator => [.operation operator]
  | .opening | .closing => []

namespace ShuntingYard

variable {nodes : List Node} {stack : List Waiting} {functions : List NamedFunction}

/-- The nodes that have left and those that wait. -/
def holdings (yard : ShuntingYard) : List Node :=
  yard.nodes ++ yard.functions.map Node.call ++ yard.stack.filterMap Waiting.node?

theorem holdings_of (nodes : List Node) (stack : List Waiting) (functions : List NamedFunction) :
    (of nodes stack functions).holdings =
      nodes ++ functions.map Node.call ++ stack.filterMap Waiting.node? := by
  rw [holdings, nodes_of, functions_of, stack_of]

theorem finish_eq_holdings {yard : ShuntingYard} {nodes : List Node}
    (h : yard.finish = .ok nodes) : nodes = yard.holdings := by
  by_cases hp : .parenthesis ∈ yard.stack
  · rw [eq_of yard, finish_unclosed hp] at h
    cases h
  · rw [eq_of yard, finish_of hp] at h
    exact (Except.ok.inj h).symm

/-! ## Each node as often as it was brought -/

theorem released_append (functions : List NamedFunction) :
    released functions ++ (functions.drop 1).map Node.call = functions.map Node.call := by
  rw [released, ← List.map_append, List.take_append_drop]

theorem count_released (node : Node) (functions : List NamedFunction) :
    (released functions).count node + ((functions.drop 1).map Node.call).count node =
      (functions.map Node.call).count node := by
  rw [← List.count_append, released_append]

theorem count_accompanied (node : Node) (leaving : List Node) : ∀ functions,
    (accompanied leaving functions).count node +
        ((functions.drop leaving.length).map Node.call).count node =
      leaving.count node + (functions.map Node.call).count node := by
  induction leaving with
  | nil =>
    intro functions
    rw [accompanied_nil_left, List.length_nil, List.drop_zero]
  | cons first leaving ih =>
    intro functions
    have hrest := ih (functions.drop 1)
    have hreleased := count_released node functions
    rw [List.drop_drop] at hrest
    rw [accompanied, List.length_cons, List.count_cons, List.count_cons, List.count_append,
      Nat.add_comm leaving.length 1]
    omega

theorem length_filterMap_node? {entries : List Waiting} (h : .parenthesis ∉ entries) :
    (entries.filterMap Waiting.node?).length = entries.length := by
  induction entries with
  | nil => rfl
  | cons entry entries ih =>
    have hrest := ih fun hm => h (List.mem_cons_of_mem entry hm)
    cases entry with
    | parenthesis => exact absurd List.mem_cons_self h
    | operation operator => exact congrArg (· + 1) hrest
    | negation => exact congrArg (· + 1) hrest

theorem filterMap_tighter (operator : Operator) (stack : List Waiting) :
    (tighter operator stack).map Node.operation ++
        (stack.drop (tighter operator stack).length).filterMap Waiting.node? =
      stack.filterMap Waiting.node? := by
  have hs := congrArg (List.filterMap Waiting.node?) (tighter_append_drop operator stack)
  rwa [List.filterMap_append, filterMap_node?_map] at hs

theorem count_waiting {waiting : Waiting} {held : Node} (h : waiting.node? = some held)
    (node : Node) (stack : List Waiting) :
    ((waiting :: stack).filterMap Waiting.node?).count node =
      [held].count node + (stack.filterMap Waiting.node?).count node := by
  rw [List.filterMap_cons_some h, ← List.singleton_append, List.count_append]

/-- The two ways in which an operand leaves: with the sign directly before it, or alone. -/
theorem add_operand_cases (nodes : List Node) (stack : List Waiting)
    (functions : List NamedFunction) (value : Value) :
    (∃ number rest, value = .literal number ∧ stack = .negation :: rest ∧
      (of nodes stack functions).add (.operand value) =
        .ok (of (nodes ++ [.number number, .negation] ++ released functions) rest
          (functions.drop 1))) ∨
    (of nodes stack functions).add (.operand value) =
      .ok (of (nodes ++ value.nodes ++ released functions) stack (functions.drop 1)) := by
  obtain ⟨number, rest, rfl, rfl⟩ | hne := behindSign_or_not value stack
  · exact .inl ⟨number, rest, rfl, rfl, add_literal_negation number⟩
  · exact .inr (add_value value hne)

theorem count_add_operand {value : Value} {after : ShuntingYard} (node : Node)
    (h : (of nodes stack functions).add (.operand value) = .ok after) :
    after.holdings.count node =
      (of nodes stack functions).holdings.count node + value.nodes.count node := by
  have hreleased := count_released node functions
  obtain ⟨number, rest, rfl, rfl, ha⟩ | ha := add_operand_cases nodes stack functions value
  · rw [ha] at h
    cases h
    have hpair : [Node.number number, .negation].count node =
        (Value.literal number).nodes.count node + [Node.negation].count node := by
      rw [← List.count_append]
      rfl
    have hstack := count_waiting (show Waiting.negation.node? = _ from rfl) node rest
    rw [holdings_of, holdings_of]
    simp only [List.count_append]
    omega
  · rw [ha] at h
    cases h
    rw [holdings_of, holdings_of]
    simp only [List.count_append]
    omega

theorem count_add_operation (operator : Operator) {after : ShuntingYard} (node : Node)
    (h : (of nodes stack functions).add (.operation operator) = .ok after) :
    after.holdings.count node =
      (of nodes stack functions).holdings.count node + [Node.operation operator].count node := by
  rw [add_operation] at h
  cases h
  have hleaving := congrArg (List.count node) (filterMap_tighter operator stack)
  have hstack := count_waiting (show (Waiting.operation operator).node? = _ from rfl) node
    (stack.drop (tighter operator stack).length)
  rw [List.count_append] at hleaving
  rw [holdings_of, holdings_of]
  simp only [List.count_append]
  omega

theorem count_add_closing {after : ShuntingYard} (node : Node)
    (h : (of nodes stack functions).add .closing = .ok after) :
    after.holdings.count node = (of nodes stack functions).holdings.count node := by
  by_cases hp : .parenthesis ∈ stack
  · obtain ⟨above, below, rfl, ha⟩ := exists_innermost hp
    rw [add_closing ha] at h
    cases h
    have haccompanied := count_accompanied node (above.filterMap Waiting.node?) functions
    rw [length_filterMap_node? ha] at haccompanied
    rw [holdings_of, holdings_of, List.filterMap_append, filterMap_parenthesis]
    simp only [List.count_append]
    omega
  · rw [add_closing_unopened hp] at h
    cases h

/-- A mark changes what the yard holds by its own nodes. -/
theorem count_add {yard after : ShuntingYard} {mark : Mark Value} (node : Node)
    (h : yard.add mark = .ok after) :
    after.holdings.count node = yard.holdings.count node + mark.nodes.count node := by
  rw [eq_of yard] at h ⊢
  cases mark with
  | operand value => exact count_add_operand node h
  | operation operator => exact count_add_operation operator node h
  | closing => exact count_add_closing node h
  | call function =>
    rw [add_call] at h
    cases h
    have hcall : ((function :: yard.functions).map Node.call).count node =
        [Node.call function].count node + (yard.functions.map Node.call).count node := by
      rw [List.map_cons, ← List.singleton_append, List.count_append]
    rw [holdings_of, holdings_of, filterMap_parenthesis, Mark.nodes]
    simp only [List.count_append]
    omega
  | sign =>
    rw [add_sign] at h
    cases h
    have hstack := count_waiting (show Waiting.negation.node? = _ from rfl) node yard.stack
    rw [holdings_of, holdings_of, Mark.nodes]
    simp only [List.count_append]
    omega
  | opening =>
    rw [add_opening] at h
    cases h
    rw [holdings_of, holdings_of, filterMap_parenthesis]
    rfl

/-! ## The numbers in their order -/

theorem numbers_released (functions : List NamedFunction) : numbers (released functions) = [] := by
  rw [← numbers_withoutCalls, withoutCalls_released]
  rfl

theorem numbers_waiting (entries : List Waiting) :
    numbers (entries.filterMap Waiting.node?) = [] := by
  rw [numbers, List.filterMap_filterMap, List.filterMap_eq_nil_iff]
  rintro (operator | _ | _) - <;> rfl

/-- A number leaves when its mark comes. -/
theorem numbers_add {yard after : ShuntingYard} {mark : Mark Value}
    (h : yard.add mark = .ok after) :
    numbers after.nodes = numbers yard.nodes ++ numbers mark.nodes := by
  rw [eq_of yard] at h
  cases mark with
  | operand value =>
    obtain ⟨number, rest, rfl, -, ha⟩ | ha :=
      add_operand_cases yard.nodes yard.stack yard.functions value
    · rw [ha] at h
      cases h
      rw [nodes_of, numbers_append, numbers_append, numbers_released, List.append_nil]
      rfl
    · rw [ha] at h
      cases h
      rw [nodes_of, numbers_append, numbers_append, numbers_released, List.append_nil]
      rfl
  | operation operator =>
    rw [add_operation] at h
    cases h
    rw [nodes_of, numbers_append, ← filterMap_node?_map, numbers_waiting]
    rfl
  | closing =>
    by_cases hp : .parenthesis ∈ yard.stack
    · obtain ⟨above, below, hs, ha⟩ := exists_innermost hp
      rw [hs, add_closing ha] at h
      cases h
      rw [nodes_of, numbers_append, ← numbers_withoutCalls (accompanied _ _),
        withoutCalls_accompanied, numbers_withoutCalls, numbers_waiting]
      rfl
    · rw [add_closing_unopened hp] at h
      cases h
  | call function =>
    rw [add_call] at h
    cases h
    rw [nodes_of]
    exact (List.append_nil _).symm
  | sign =>
    rw [add_sign] at h
    cases h
    rw [nodes_of]
    exact (List.append_nil _).symm
  | opening =>
    rw [add_opening] at h
    cases h
    rw [nodes_of]
    exact (List.append_nil _).symm

/-! ## A whole run -/

theorem addAll_inventory {marks : List (Mark Value)} :
    ∀ {yard after : ShuntingYard}, yard.addAll marks = .ok after →
      (∀ node, after.holdings.count node =
        yard.holdings.count node + (marks.flatMap Mark.nodes).count node) ∧
      numbers after.nodes = numbers yard.nodes ++ numbers (marks.flatMap Mark.nodes) := by
  induction marks with
  | nil =>
    intro yard after h
    cases h
    exact ⟨fun _ => rfl, (List.append_nil _).symm⟩
  | cons mark marks ih =>
    intro yard after h
    rw [addAll_cons] at h
    cases ha : yard.add mark with
    | error failure =>
      rw [ha] at h
      cases h
    | ok next =>
      rw [ha] at h
      obtain ⟨hcount, hnumbers⟩ := ih h
      constructor
      · intro node
        rw [hcount, count_add node ha, List.flatMap_cons, List.count_append, Nat.add_assoc]
      · rw [hnumbers, numbers_add ha, List.flatMap_cons, numbers_append, List.append_assoc]

/-- The postfix order has the nodes of its marks, each as often as they bring it, and the numbers
among them in their order. -/
theorem finish_inventory {marks : List (Mark Value)} {yard : ShuntingYard} {nodes : List Node}
    (h : empty.addAll marks = .ok yard) (hf : yard.finish = .ok nodes) :
    nodes.Perm (marks.flatMap Mark.nodes) ∧ numbers nodes = numbers (marks.flatMap Mark.nodes) := by
  obtain ⟨hcount, hnumbers⟩ := addAll_inventory h
  rw [finish_eq_holdings hf]
  constructor
  · rw [List.perm_iff_count]
    intro node
    exact (hcount node).trans (Nat.zero_add _)
  · rw [holdings, numbers_append, numbers_append, numbers_waiting,
      ← numbers_withoutCalls (.map _ _), withoutCalls_map_call, hnumbers]
    exact (List.append_nil _).trans (List.append_nil _)

end ShuntingYard

end Calculator
