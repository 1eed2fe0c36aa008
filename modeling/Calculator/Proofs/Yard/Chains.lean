import Calculator.Proofs.Yard.Steps
import Mathlib.Data.List.TakeWhile

/-!
# Chains in the yard

Between two links of a chain the yard has let go all nodes of the tree that the chain
has so far, except the operators at its right edge. Those wait on the stack, the lowest
one on top, above whatever the group found there.
-/
namespace Calculator

namespace Chained

/-- The operators at the right edge, the lowest at the head. -/
def edge : Chained → List Operator
  | leaf _ => []
  | node _ operator right => right.edge ++ [operator]

/-- The nodes that the operators at the right edge have to wait for. -/
def settled : Chained → List Node
  | leaf tree => tree.postorder
  | node left _ right => left.tree.postorder ++ right.settled

theorem postorder_tree (chain : Chained) :
    chain.tree.postorder = chain.settled ++ chain.edge.map Node.operation := by
  induction chain with
  | leaf start => simp [tree, settled, edge]
  | node left operator right _ ih =>
    rw [tree, Tree.postorder, ih, settled, edge, List.map_append]
    simp only [List.append_assoc, List.map_cons, List.map_nil]

/-- The operators that a new one lets leave. -/
def leaving (operator : Operator) (chain : Chained) : List Operator :=
  chain.edge.takeWhile fun other => operator.precedence ≤ other.precedence

/-- The operators that a new one keeps waiting. -/
def staying (operator : Operator) (chain : Chained) : List Operator :=
  chain.edge.dropWhile fun other => operator.precedence ≤ other.precedence

theorem leaving_append_staying (operator : Operator) (chain : Chained) :
    chain.leaving operator ++ chain.staying operator = chain.edge :=
  List.takeWhile_append_dropWhile

theorem Ordered.precedence_edge_lt {left right : Chained} {operator : Operator}
    (h : (node left operator right).Ordered) :
    ∀ other ∈ right.edge, operator.precedence < other.precedence := by
  intro other hm
  have hlink : ∃ link ∈ right.links, link.1 = other := by
    clear h
    induction right with
    | leaf tree => cases hm
    | node l o r _ ih =>
      rcases List.mem_append.mp hm with hr | ho
      · obtain ⟨link, hlink, he⟩ := ih hr
        exact ⟨link, List.mem_append_right _ (List.mem_cons_of_mem _ hlink), he⟩
      · have hlink : (o, r.first) ∈ l.links ++ (o, r.first) :: r.links :=
          List.mem_append_right _ List.mem_cons_self
        exact ⟨(o, r.first), hlink, (List.mem_singleton.mp ho).symm⟩
  obtain ⟨link, hlink, rfl⟩ := hlink
  exact h.precedence_lt link hlink

section Node

variable {left right : Chained} {other operator : Operator}

theorem leaving_of_lt (h : other.precedence < operator.precedence) :
    (node left other right).leaving operator = right.leaving operator := by
  have hno : ¬ operator.precedence ≤ other.precedence := Nat.not_le.mpr h
  rw [leaving, edge, List.takeWhile_append]
  split
  · rename_i he
    rw [List.takeWhile_cons, if_neg (by simpa using hno), List.append_nil]
    exact ((List.takeWhile_prefix _).eq_of_length he).symm
  · rfl

theorem leaving_of_le (ho : (node left other right).Ordered)
    (h : operator.precedence ≤ other.precedence) :
    (node left other right).leaving operator = (node left other right).edge := by
  rw [leaving, List.takeWhile_eq_self_iff]
  intro o hm
  rw [edge, List.mem_append] at hm
  rw [decide_eq_true_eq]
  rcases hm with hm | hm
  · have hlt := ho.precedence_edge_lt o hm
    omega
  · rw [List.mem_singleton.mp hm]
    exact h

theorem staying_of_lt (h : other.precedence < operator.precedence) :
    (node left other right).staying operator = right.staying operator ++ [other] := by
  have hs := leaving_append_staying operator (node left other right)
  rw [leaving_of_lt h, edge, ← leaving_append_staying operator right, List.append_assoc] at hs
  exact List.append_cancel_left hs

theorem staying_of_le (ho : (node left other right).Ordered)
    (h : operator.precedence ≤ other.precedence) :
    (node left other right).staying operator = [] := by
  have hs := leaving_append_staying operator (node left other right)
  rw [leaving_of_le ho h] at hs
  exact List.append_cancel_left (hs.trans (List.append_nil _).symm)

end Node

theorem edge_insert {chain : Chained} (h : chain.Ordered) (operator : Operator) (operand : Tree) :
    (chain.insert operator operand).edge = operator :: chain.staying operator := by
  induction chain with
  | leaf start => rfl
  | node left other right _ ih =>
    rw [insert]
    split
    · rename_i hlt
      rw [edge, ih h.2.1, staying_of_lt hlt, List.cons_append]
    · rename_i hle
      rw [staying_of_le h (Nat.le_of_not_lt hle)]
      rfl

theorem settled_insert {chain : Chained} (h : chain.Ordered) (operator : Operator) (operand : Tree) :
    (chain.insert operator operand).settled =
      chain.settled ++ (chain.leaving operator).map Node.operation ++ operand.postorder := by
  induction chain with
  | leaf start => simp [insert, settled, leaving, edge, tree]
  | node left other right _ ih =>
    rw [insert]
    split
    · rename_i hlt
      rw [settled, ih h.2.1, leaving_of_lt hlt, settled]
      simp only [List.append_assoc]
    · rename_i hle
      rw [settled, postorder_tree, leaving_of_le h (Nat.le_of_not_lt hle), settled]

end Chained

namespace ShuntingYard

theorem tighter_map_append (operator : Operator) (operators : List Operator) {base : List Waiting}
    (hb : ∀ top, base.head? ≠ some (.operation top)) :
    tighter operator (operators.map Waiting.operation ++ base) =
      operators.takeWhile fun other => operator.precedence ≤ other.precedence := by
  induction operators with
  | nil =>
    rcases base with _ | ⟨top, base⟩
    · rfl
    · cases top with
      | operation top => exact absurd rfl (hb top)
      | negation => rfl
      | parenthesis => rfl
  | cons top operators ih =>
    rw [List.map_cons, List.cons_append, tighter, List.takeWhile_cons, ih]
    simp only [decide_eq_true_eq]

/-- The yard between two links of a chain. -/
def between (nodes : List Node) (base : List Waiting) (chain : Chained) : ShuntingYard :=
  of (nodes ++ chain.settled) (chain.edge.map Waiting.operation ++ base) []

/-- An operator lets a part of the edge leave and waits above the rest. -/
theorem add_operation_between {nodes : List Node} {base : List Waiting}
    (hb : ∀ top, base.head? ≠ some (.operation top)) (chain : Chained) (operator : Operator) :
    (between nodes base chain).add (.operation operator) =
      .ok (of (nodes ++ chain.settled ++ (chain.leaving operator).map Node.operation)
        ((operator :: chain.staying operator).map Waiting.operation ++ base) []) := by
  have hs : (chain.edge.map Waiting.operation ++ base).drop (chain.leaving operator).length =
      (chain.staying operator).map Waiting.operation ++ base := by
    rw [← chain.leaving_append_staying operator, List.map_append, List.append_assoc]
    exact List.drop_left' (List.length_map _)
  rw [between, add_operation, tighter_map_append operator chain.edge hb]
  change Except.ok (of _ (_ :: List.drop (chain.leaving operator).length _) _) = _
  rw [hs]
  rfl

/-- The postorder of the right operand completes a link. -/
theorem between_insert {chain : Chained} (h : chain.Ordered) (operator : Operator) (operand : Tree)
    (nodes : List Node) (base : List Waiting) :
    between nodes base (chain.insert operator operand) =
      of (nodes ++ chain.settled ++ (chain.leaving operator).map Node.operation ++
          operand.postorder)
        ((operator :: chain.staying operator).map Waiting.operation ++ base) [] := by
  rw [between, Chained.edge_insert h, Chained.settled_insert h]
  simp only [List.append_assoc]

end ShuntingYard

end Calculator
