import Calculator.Proofs.Yard.Groups

/-!
# The yard without its functions

Functions wait on a stack of their own and nothing looks at them but their own release. A
yard that takes a parenthesis for every call has the same stack at every moment, and has
let the same other nodes leave.
-/
namespace Calculator

variable {α : Type}

def Node.isCall : Node → Bool
  | .call _ => true
  | _ => false

/-- The nodes that are no functions. -/
def withoutCalls (nodes : List Node) : List Node :=
  nodes.filter fun node => !node.isCall

theorem withoutCalls_append (nodes more : List Node) :
    withoutCalls (nodes ++ more) = withoutCalls nodes ++ withoutCalls more :=
  List.filter_append ..

theorem withoutCalls_map_call (functions : List NamedFunction) :
    withoutCalls (functions.map Node.call) = [] := by
  induction functions with
  | nil => rfl
  | cons function functions ih => exact ih

/-- The mark with the name of a call left out. -/
def Mark.unnamed : Mark α → Mark α
  | .call _ => .opening
  | mark => mark

namespace ShuntingYard

theorem withoutCalls_released (functions : List NamedFunction) :
    withoutCalls (released functions) = [] :=
  withoutCalls_map_call _

theorem withoutCalls_value (value : Value) : withoutCalls value.nodes = value.nodes := by
  cases value with
  | literal number => rfl
  | answered number =>
    rw [Value.nodes]
    split <;> rfl

theorem withoutCalls_waiting (entries : List Waiting) :
    withoutCalls (entries.filterMap Waiting.node?) = entries.filterMap Waiting.node? := by
  rw [withoutCalls, List.filter_eq_self]
  intro node hnode
  obtain ⟨entry, -, he⟩ := List.mem_filterMap.mp hnode
  cases entry with
  | parenthesis => cases he
  | operation operator =>
    cases he
    rfl
  | negation =>
    cases he
    rfl

theorem withoutCalls_operations (operators : List Operator) :
    withoutCalls (operators.map Node.operation) = operators.map Node.operation := by
  rw [← filterMap_node?_map, withoutCalls_waiting]

theorem withoutCalls_accompanied (leaving : List Node) :
    ∀ functions, withoutCalls (accompanied leaving functions) = withoutCalls leaving := by
  induction leaving with
  | nil => exact fun _ => rfl
  | cons node leaving ih =>
    intro functions
    have hcons : ∀ rest, withoutCalls (node :: rest) = withoutCalls [node] ++ withoutCalls rest :=
      fun rest => withoutCalls_append [node] rest
    rw [accompanied, hcons, withoutCalls_append, withoutCalls_released, ih, hcons leaving]
    rfl

/-- The yard as it is if no function has ever been in it. -/
def unnamed (yard : ShuntingYard) : ShuntingYard :=
  of (withoutCalls yard.nodes) yard.stack []

theorem unnamed_of (nodes : List Node) (stack : List Waiting) (functions : List NamedFunction) :
    (of nodes stack functions).unnamed = of (withoutCalls nodes) stack [] := by
  rw [unnamed, nodes_of, stack_of]

theorem unnamed_empty : empty.unnamed = empty := rfl

variable {nodes : List Node} {stack : List Waiting} {functions : List NamedFunction}

theorem add_operand_unnamed (value : Value) :
    (of (withoutCalls nodes) stack []).add (.operand value) =
      ((of nodes stack functions).add (.operand value)).map unnamed := by
  obtain ⟨number, rest, rfl, rfl⟩ | hne := behindSign_or_not value stack
  · rw [add_literal_negation, add_literal_negation, Except.map, unnamed_of, withoutCalls_append,
      withoutCalls_append, withoutCalls_released]
    rfl
  · rw [add_value value hne, add_value value hne, Except.map, unnamed_of, withoutCalls_append,
      withoutCalls_append, withoutCalls_released, withoutCalls_value]
    rfl

theorem add_closing_unnamed : (of (withoutCalls nodes) stack []).add .closing =
    ((of nodes stack functions).add .closing).map unnamed := by
  by_cases hp : .parenthesis ∈ stack
  · obtain ⟨above, below, rfl, ha⟩ := exists_innermost hp
    rw [add_closing ha, add_closing ha, Except.map, unnamed_of, withoutCalls_append,
      withoutCalls_accompanied, withoutCalls_waiting, accompanied_nil, List.drop_nil]
  · rw [add_closing_unopened hp, add_closing_unopened hp]
    rfl

/-- One mark keeps a yard and the yard without functions together. -/
theorem add_unnamed (yard : ShuntingYard) (mark : Mark Value) :
    yard.unnamed.add mark.unnamed = (yard.add mark).map unnamed := by
  rw [eq_of yard, unnamed_of]
  cases mark with
  | operand value => exact add_operand_unnamed value
  | operation operator =>
    change (of _ _ []).add (.operation operator) = _
    rw [add_operation, add_operation, Except.map, unnamed_of, withoutCalls_append,
      withoutCalls_operations]
  | closing => exact add_closing_unnamed
  | call function => rw [Mark.unnamed, add_call, add_opening, Except.map, unnamed_of]
  | sign =>
    change (of _ _ []).add .sign = _
    rw [add_sign, add_sign, Except.map, unnamed_of]
  | opening =>
    change (of _ _ []).add .opening = _
    rw [add_opening, add_opening, Except.map, unnamed_of]

theorem finish_unnamed (yard : ShuntingYard) :
    yard.unnamed.finish = yard.finish.map withoutCalls := by
  rw [eq_of yard, unnamed_of]
  by_cases hp : .parenthesis ∈ yard.stack
  · rw [finish_unclosed hp, finish_unclosed hp]
    rfl
  · rw [finish_of hp, finish_of hp, Except.map, withoutCalls_append, withoutCalls_append,
      withoutCalls_map_call, withoutCalls_waiting]
    rfl

end ShuntingYard

end Calculator
