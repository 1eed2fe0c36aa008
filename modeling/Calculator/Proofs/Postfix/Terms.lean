import Calculator.Postfix.Evaluation

/-!
# Postfix expressions and terms

A term has one place for every node of its postorder. What an evaluation does with
doubles can be done with terms as well: every node takes as many from the stack and
leaves one. A stack of terms keeps the nodes it was built from, so an evaluation that
comes to a value has read the postorder of one term, and there is no other.
-/
namespace Calculator

inductive Term where
  | number (value : Float)
  | negation (argument : Term)
  | operation (operator : Operator) (left right : Term)
  | call (function : NamedFunction) (argument : Term)

namespace Term

def postorder : Term → List Node
  | number value => [.number value]
  | negation argument => argument.postorder ++ [.negation]
  | operation operator left right => left.postorder ++ right.postorder ++ [.operation operator]
  | call function argument => argument.postorder ++ [.call function]

def value : Term → Float
  | number value => value
  | negation argument => -argument.value
  | operation operator left right => operator.apply left.value right.value
  | call function argument => function.apply argument.value

/-- The postorders of a stack of terms, from the bottom to the top. -/
def forest : List Term → List Node
  | [] => []
  | top :: stack => forest stack ++ top.postorder

end Term

open Term

/-- The stack of terms after a node; the top is at the head. -/
def Node.build : Node → List Term → Option (List Term)
  | .number value, stack => some (.number value :: stack)
  | .negation, argument :: stack => some (.negation argument :: stack)
  | .operation operator, right :: left :: stack => some (.operation operator left right :: stack)
  | .call function, argument :: stack => some (.call function argument :: stack)
  | _, _ => none

/-- The stack of terms after a list of nodes. -/
def buildOn (stack : List Term) (nodes : List Node) : Option (List Term) :=
  nodes.foldlM (fun stack node => node.build stack) stack

theorem buildOn_cons (stack : List Term) (node : Node) (nodes : List Node) :
    buildOn stack (node :: nodes) = (node.build stack).bind (buildOn · nodes) := rfl

theorem buildOn_append (stack : List Term) (nodes more : List Node) :
    buildOn stack (nodes ++ more) = (buildOn stack nodes).bind (buildOn · more) :=
  List.foldlM_append

theorem buildOn_postorder (term : Term) :
    ∀ stack, buildOn stack term.postorder = some (term :: stack) := by
  induction term with
  | number value => exact fun _ => rfl
  | negation argument ih =>
    intro stack
    rw [postorder, buildOn_append, ih]
    rfl
  | operation operator left right ihl ihr =>
    intro stack
    rw [postorder, buildOn_append, buildOn_append, ihl, Option.bind_some, ihr]
    rfl
  | call function argument ih =>
    intro stack
    rw [postorder, buildOn_append, ih]
    rfl

/-- A node is put behind the nodes that the stack was built from. -/
theorem forest_build {node : Node} {stack after : List Term} (h : node.build stack = some after) :
    forest after = forest stack ++ [node] := by
  cases node with
  | number value =>
    cases h
    rfl
  | negation =>
    rcases stack with _ | ⟨argument, stack⟩
    · cases h
    · cases h
      exact (List.append_assoc ..).symm
  | operation operator =>
    rcases stack with _ | ⟨right, _ | ⟨left, stack⟩⟩
    · cases h
    · cases h
    · cases h
      simp only [forest, postorder, List.append_assoc]
  | call function =>
    rcases stack with _ | ⟨argument, stack⟩
    · cases h
    · cases h
      exact (List.append_assoc ..).symm

theorem forest_buildOn {nodes : List Node} :
    ∀ {stack after : List Term}, buildOn stack nodes = some after →
      forest after = forest stack ++ nodes := by
  induction nodes with
  | nil =>
    intro stack after h
    cases h
    exact (List.append_nil _).symm
  | cons node nodes ih =>
    intro stack after h
    rw [buildOn_cons, Option.bind_eq_some_iff] at h
    obtain ⟨next, hnode, hnodes⟩ := h
    rw [ih hnodes, forest_build hnode, List.append_assoc, List.singleton_append]

/-- No two terms have the same postorder. -/
theorem postorder_injective : Function.Injective postorder := by
  intro term other h
  have hterm := buildOn_postorder term []
  rw [h, buildOn_postorder other []] at hterm
  cases hterm
  rfl

/-! ## Evaluation follows the terms -/

/-- A node does to the values of terms what it does to the terms. -/
theorem evaluate_map_value_iff {node : Node} {terms : List Term} {stack : List Float} :
    node.evaluate (terms.map value) = .ok stack ↔
      ∃ after, node.build terms = some after ∧ after.map value = stack := by
  cases node with
  | number value => simp [Node.evaluate, Node.build, Term.value]
  | negation =>
    rcases terms with _ | ⟨argument, terms⟩
    · simp [Node.evaluate, Node.build]
    · simp [Node.evaluate, Node.build, value]
  | operation operator =>
    rcases terms with _ | ⟨right, _ | ⟨left, terms⟩⟩
    · simp [Node.evaluate, Node.build]
    · simp [Node.evaluate, Node.build]
    · simp [Node.evaluate, Node.build, value]
  | call function =>
    rcases terms with _ | ⟨argument, terms⟩
    · simp [Node.evaluate, Node.build]
    · simp [Node.evaluate, Node.build, value]

theorem evaluateOn_map_value_iff {nodes : List Node} :
    ∀ {terms : List Term} {stack : List Float},
      evaluateOn (terms.map value) nodes = .ok stack ↔
        ∃ after, buildOn terms nodes = some after ∧ after.map value = stack := by
  induction nodes with
  | nil =>
    intro terms stack
    change Except.ok (terms.map value) = .ok stack ↔ ∃ after, some terms = some after ∧ _
    simp
  | cons node nodes ih =>
    intro terms stack
    change (node.evaluate (terms.map value)).bind (evaluateOn · nodes) = .ok stack ↔ _
    rw [buildOn_cons]
    constructor
    · intro h
      cases hnode : node.evaluate (terms.map value) with
      | error failure =>
        rw [hnode] at h
        cases h
      | ok between =>
        rw [hnode] at h
        obtain ⟨next, hnext, rfl⟩ := evaluate_map_value_iff.mp hnode
        rw [hnext]
        exact ih.mp h
    · rintro ⟨after, h, hafter⟩
      rw [Option.bind_eq_some_iff] at h
      obtain ⟨next, hnode, hnodes⟩ := h
      rw [evaluate_map_value_iff.mpr ⟨next, hnode, rfl⟩]
      exact ih.mpr ⟨after, hnodes, hafter⟩

/-- Evaluation succeeds exactly on postorders: every term's postorder has the value of the term,
and nodes that have a value are the postorder of exactly one term, whose value it is. -/
theorem evaluate_succeeds_on_postorders :
    (∀ term : Term, evaluate term.postorder = .ok term.value) ∧
    ∀ (nodes : List Node) (value : Float), evaluate nodes = .ok value →
      ∃ term : Term, term.postorder = nodes ∧ term.value = value ∧
        ∀ other : Term, other.postorder = nodes → other = term := by
  constructor
  · intro term
    rw [evaluate_eq_ok_iff]
    exact evaluateOn_map_value_iff.mpr ⟨[term], buildOn_postorder term [], rfl⟩
  · intro nodes value h
    rw [evaluate_eq_ok_iff] at h
    obtain ⟨after, hbuild, hafter⟩ := (@evaluateOn_map_value_iff nodes [] [value]).mp h
    obtain ⟨term, rfl, hvalue⟩ := List.map_eq_singleton_iff.mp hafter
    have hnodes : term.postorder = nodes := forest_buildOn hbuild
    exact ⟨term, hnodes, hvalue, fun other ho => postorder_injective (ho.trans hnodes.symm)⟩

end Calculator
