import Calculator.Proofs.Conversion.Reading
import Calculator.Proofs.Grammar.Precedence
import Mathlib.Data.List.Basic

/-!
# What the yard does with each mark

Every step is told by the nodes that leave, in their order, and by what is left on the
two stacks. A closing parenthesis releases one function with each entry above the
innermost opening one.
-/
namespace Calculator

namespace ShuntingYard

/-- The yard that these nodes have left, in this order. -/
def of (nodes : List Node) (stack : List Waiting) (functions : List NamedFunction) :
    ShuntingYard :=
  ⟨nodes.reverse, stack, functions⟩

theorem eq_of (yard : ShuntingYard) : yard = of yard.nodes yard.stack yard.functions := by
  rw [of, nodes, List.reverse_reverse]

theorem empty_eq_of : empty = of [] [] [] := rfl

variable {nodes : List Node} {stack : List Waiting} {functions : List NamedFunction}

@[simp] theorem nodes_of : (of nodes stack functions).nodes = nodes := List.reverse_reverse nodes

@[simp] theorem stack_of : (of nodes stack functions).stack = stack := rfl

@[simp] theorem functions_of : (of nodes stack functions).functions = functions := rfl

theorem emit_of (node : Node) :
    (of nodes stack functions).emit node = of (nodes ++ [node]) stack functions := by
  simp [emit, of]

/-- The innermost function, if one waits. -/
def released (functions : List NamedFunction) : List Node :=
  (functions.take 1).map Node.call

theorem releaseFunction_of : (of nodes stack functions).releaseFunction =
    of (nodes ++ released functions) stack (functions.drop 1) := by
  cases functions <;> simp [releaseFunction, of, released, emit]

theorem add_literal_negation (value : Float) :
    (of nodes (.negation :: stack) functions).add (.operand (.literal value)) =
      .ok (of (nodes ++ [.number value, .negation] ++ released functions) stack
        (functions.drop 1)) := by
  have hr : (of (nodes ++ [.number value]) (.negation :: stack) functions).releaseNegation =
      of (nodes ++ [.number value] ++ [.negation]) stack functions := by
    simp [releaseNegation, of, emit]
  rw [add, addNumber, emit_of, hr, releaseFunction_of]
  simp

theorem add_literal (value : Float) (h : stack.head? ≠ some .negation) :
    (of nodes stack functions).add (.operand (.literal value)) =
      .ok (of (nodes ++ [.number value] ++ released functions) stack (functions.drop 1)) := by
  have hr : (of (nodes ++ [.number value]) stack functions).releaseNegation =
      of (nodes ++ [.number value]) stack functions := by
    rcases stack with _ | ⟨top, stack⟩
    · rfl
    · cases top with
      | negation => exact absurd rfl h
      | operation operator => rfl
      | parenthesis => rfl
  rw [add, addNumber, emit_of, hr, releaseFunction_of]

theorem add_answered (value : Float) :
    (of nodes stack functions).add (.operand (.answered value)) =
      .ok (of (nodes ++ (Value.answered value).nodes ++ released functions) stack
        (functions.drop 1)) := by
  rw [add, addVariable, Value.nodes]
  split
  · rw [emit_of, emit_of, releaseFunction_of]
    simp
  · rw [emit_of, releaseFunction_of]

theorem add_call (function : NamedFunction) : (of nodes stack functions).add (.call function) =
    .ok (of nodes (.parenthesis :: stack) (function :: functions)) := rfl

theorem add_sign : (of nodes stack functions).add .sign =
    .ok (of nodes (.negation :: stack) functions) := rfl

theorem add_opening : (of nodes stack functions).add .opening =
    .ok (of nodes (.parenthesis :: stack) functions) := rfl

theorem add_operation (operator : Operator) : (of nodes stack functions).add (.operation operator) =
    .ok (of (nodes ++ (tighter operator stack).map Node.operation)
      (.operation operator :: stack.drop (tighter operator stack).length) functions) := by
  rw [add, addOperator, of, of, List.reverse_append]

/-- Nodes that leave one after the other, each with one of the waiting functions. -/
def accompanied : List Node → List NamedFunction → List Node
  | [], _ => []
  | node :: nodes, functions =>
    node :: (released functions ++ accompanied nodes (functions.drop 1))

@[simp] theorem accompanied_nil_left (functions : List NamedFunction) :
    accompanied [] functions = [] := rfl

@[simp] theorem accompanied_nil (leaving : List Node) : accompanied leaving [] = leaving := by
  induction leaving with
  | nil => rfl
  | cons node leaving ih => simpa [accompanied, released] using ih

theorem close_of (entries : List Waiting) (below : List Waiting) (h : .parenthesis ∉ entries) :
    ∀ nodes functions, closeGroup.close (entries ++ .parenthesis :: below)
        (of nodes stack functions) =
      .ok (of (nodes ++ accompanied (entries.filterMap Waiting.node?) functions) below
        (functions.drop entries.length)) := by
  induction entries with
  | nil =>
    intro nodes functions
    simp [closeGroup.close, of]
  | cons entry entries ih =>
    intro nodes functions
    have hrest := ih fun hm => h (List.mem_cons_of_mem entry hm)
    cases entry with
    | parenthesis => exact absurd List.mem_cons_self h
    | operation operator =>
      rw [List.cons_append, closeGroup.close, emit_of, releaseFunction_of, hrest]
      simp [accompanied, Waiting.node?]
    | negation =>
      rw [List.cons_append, closeGroup.close, emit_of, releaseFunction_of, hrest]
      simp [accompanied, Waiting.node?]

theorem add_closing {entries below : List Waiting} (h : .parenthesis ∉ entries) :
    (of nodes (entries ++ .parenthesis :: below) functions).add .closing =
      .ok (of (nodes ++ accompanied (entries.filterMap Waiting.node?) functions) below
        (functions.drop entries.length)) :=
  close_of entries below h nodes functions

theorem close_unopened (entries : List Waiting) (h : .parenthesis ∉ entries) :
    ∀ yard : ShuntingYard, closeGroup.close entries yard = .error .unopenedParenthesis := by
  induction entries with
  | nil => exact fun _ => rfl
  | cons entry entries ih =>
    intro yard
    have hrest := ih fun hm => h (List.mem_cons_of_mem entry hm)
    cases entry with
    | parenthesis => exact absurd List.mem_cons_self h
    | operation operator => exact hrest _
    | negation => exact hrest _

theorem add_closing_unopened (h : .parenthesis ∉ stack) :
    (of nodes stack functions).add .closing = .error .unopenedParenthesis :=
  close_unopened stack h _

theorem mapM_node? (entries : List Waiting) (h : .parenthesis ∉ entries) :
    entries.mapM Waiting.node? = some (entries.filterMap Waiting.node?) := by
  induction entries with
  | nil => rfl
  | cons entry entries ih =>
    have hrest := ih fun hm => h (List.mem_cons_of_mem entry hm)
    cases entry with
    | parenthesis => exact absurd List.mem_cons_self h
    | operation operator => simp [List.mapM_cons, hrest, Waiting.node?]
    | negation => simp [List.mapM_cons, hrest, Waiting.node?]

theorem finish_of (h : .parenthesis ∉ stack) : (of nodes stack functions).finish =
    .ok (nodes ++ functions.map Node.call ++ stack.filterMap Waiting.node?) := by
  rw [finish, stack_of, mapM_node? stack h, nodes_of, functions_of]

theorem mapM_node?_eq_none {entries : List Waiting} (h : .parenthesis ∈ entries) :
    entries.mapM Waiting.node? = none := by
  induction entries with
  | nil => cases h
  | cons entry entries ih =>
    rw [List.mapM_cons]
    cases entry with
    | parenthesis => rfl
    | operation operator =>
      have hm : .parenthesis ∈ entries := by simpa using h
      rw [ih hm]
      rfl
    | negation =>
      have hm : .parenthesis ∈ entries := by simpa using h
      rw [ih hm]
      rfl

theorem finish_unclosed (h : .parenthesis ∈ stack) :
    (of nodes stack functions).finish = .error .unclosedParenthesis := by
  rw [finish, stack_of, mapM_node?_eq_none h]

/-- A stack with a parenthesis is cut at the innermost one. -/
theorem exists_innermost {entries : List Waiting} (h : .parenthesis ∈ entries) :
    ∃ above below, entries = above ++ .parenthesis :: below ∧ .parenthesis ∉ above := by
  obtain ⟨above, below, hne, he, -⟩ := List.exists_erase_eq h
  exact ⟨above, below, he, hne⟩

end ShuntingYard

end Calculator
