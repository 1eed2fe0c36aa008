import Calculator.Postfix.Evaluation
import Calculator.Proofs.Grammar.Mark

/-!
# Trees and precedence

The syntax trees of expressions, with their postorder and their value. A chain of
operands and operators has one tree under precedence with grouping to the left: the one
that adding its links at the right end builds.
-/
namespace Calculator

/-- The order of binding: sums and differences bind less tightly than products and quotients, and
all of these less tightly than powers. -/
def Operator.Looser : Operator → Operator → Prop
  | addition, other | subtraction, other =>
    other = multiplication ∨ other = division ∨ other = exponentiation
  | multiplication, other | division, other => other = exponentiation
  | exponentiation, _ => False

theorem Operator.looser_iff {operator other : Operator} :
    operator.Looser other ↔ operator.precedence < other.precedence := by
  cases operator <;> cases other <;> simp [Looser, precedence]

/-- The nodes of an operand: a negative variable is its magnitude, negated. -/
def Value.nodes : Value → List Node
  | .literal value => [.number value]
  | .answered value => if value < 0 then [.number (-value), .negation] else [.number value]

theorem Value.exists_nodes_eq_cons (value : Value) :
    ∃ number rest, value.nodes = .number number :: rest := by
  cases value with
  | literal number => exact ⟨_, _, rfl⟩
  | answered number =>
    rw [nodes]
    split <;> exact ⟨_, _, rfl⟩

/-- The double that the nodes of an operand leave. -/
def Value.worth : Value → Float
  | .literal value => value
  | .answered value => if value < 0 then -(-value) else value

inductive Tree where
  | operand (value : Value)
  /-- A literal with the sign directly before it. -/
  | signed (value : Float)
  | negation (argument : Tree)
  | call (function : NamedFunction) (argument : Tree)
  | operation (operator : Operator) (left right : Tree)

namespace Tree

def postorder : Tree → List Node
  | operand value => value.nodes
  | signed value => [.number value, .negation]
  | negation argument => argument.postorder ++ [.negation]
  | call function argument => argument.postorder ++ [.call function]
  | operation operator left right => left.postorder ++ right.postorder ++ [.operation operator]

def value : Tree → Float
  | operand value => value.worth
  | signed value => -value
  | negation argument => -argument.value
  | call function argument => function.apply argument.value
  | operation operator left right => operator.apply left.value right.value

/-- The tree with a function of its first operand. -/
def withCall (function : NamedFunction) : Tree → Tree
  | operand value => call function (operand value)
  | signed value => call function (signed value)
  | negation argument => negation (argument.withCall function)
  | call other argument => call other (argument.withCall function)
  | operation operator left right => operation operator (left.withCall function) right

/-- The tree with these functions of its first operand, the first of them innermost. -/
def withCalls (functions : List NamedFunction) (tree : Tree) : Tree :=
  functions.foldl (fun tree function => tree.withCall function) tree

theorem withCalls_negation (functions : List NamedFunction) (argument : Tree) :
    (negation argument).withCalls functions = negation (argument.withCalls functions) := by
  induction functions generalizing argument with
  | nil => rfl
  | cons function functions ih => exact ih (argument.withCall function)

theorem evaluateOn_append (stack : List Float) (nodes more : List Node) :
    evaluateOn stack (nodes ++ more) = (evaluateOn stack nodes).bind (evaluateOn · more) :=
  List.foldlM_append

theorem evaluateOn_value_nodes (value : Value) (stack : List Float) :
    evaluateOn stack value.nodes = .ok (value.worth :: stack) := by
  cases value with
  | literal value => rfl
  | answered value =>
    rw [Value.nodes, Value.worth]
    split <;> rfl

/-- The postorder of a tree leaves its value on the stack. -/
theorem evaluateOn_postorder (tree : Tree) :
    ∀ stack, evaluateOn stack tree.postorder = .ok (tree.value :: stack) := by
  induction tree with
  | operand value => exact evaluateOn_value_nodes value
  | signed value => exact fun _ => rfl
  | negation argument ih =>
    intro stack
    rw [postorder, evaluateOn_append, ih]
    rfl
  | call function argument ih =>
    intro stack
    rw [postorder, evaluateOn_append, ih]
    rfl
  | operation operator left right ihl ihr =>
    intro stack
    rw [postorder, evaluateOn_append, evaluateOn_append, ihl, Except.bind, ihr]
    rfl

theorem evaluate_postorder (tree : Tree) : evaluate tree.postorder = .ok tree.value := by
  rw [evaluate, evaluateOn_postorder]
  rfl

end Tree

/-! ## Chains -/

/-- A tree of the operators of one chain, over the trees of its operands. -/
inductive Chained where
  | leaf (tree : Tree)
  | node (left : Chained) (operator : Operator) (right : Chained)

namespace Chained

def tree : Chained → Tree
  | leaf tree => tree
  | node left operator right => .operation operator left.tree right.tree

/-- The first operand of the chain. -/
def first : Chained → Tree
  | leaf tree => tree
  | node left _ _ => left.first

/-- The links of the chain behind its first operand. -/
def links : Chained → List (Operator × Tree)
  | leaf _ => []
  | node left operator right => left.links ++ (operator, right.first) :: right.links

/-- The chain with one more link. The operators at the right edge that bind less tightly than the
new one keep it in their right operand. -/
def insert (operator : Operator) (operand : Tree) : Chained → Chained
  | leaf tree => node (leaf tree) operator (leaf operand)
  | node left other right =>
    if other.precedence < operator.precedence then
      node left other (right.insert operator operand)
    else node (node left other right) operator (leaf operand)

/-- The operator at the root. -/
def root? : Chained → Option Operator
  | leaf _ => none
  | node _ operator _ => some operator

/-- No operator in a left operand is looser than the one that has the operand, and every one in a
right operand binds more tightly. -/
def Ordered : Chained → Prop
  | leaf _ => True
  | node left operator right =>
    left.Ordered ∧ right.Ordered ∧ (∀ other ∈ left.root?, ¬ other.Looser operator) ∧
      (∀ other ∈ right.root?, operator.Looser other)

theorem ordered_node_iff {left right : Chained} {operator : Operator} :
    (node left operator right).Ordered ↔ left.Ordered ∧ right.Ordered ∧
      (∀ other ∈ left.root?, operator.precedence ≤ other.precedence) ∧
      (∀ other ∈ right.root?, operator.precedence < other.precedence) := by
  simp only [Ordered, Operator.looser_iff, Nat.not_lt]

theorem first_insert (operator : Operator) (operand : Tree) (chain : Chained) :
    (chain.insert operator operand).first = chain.first := by
  cases chain with
  | leaf tree => rfl
  | node left other right =>
    rw [insert]
    split <;> rfl

theorem links_insert (operator : Operator) (operand : Tree) (chain : Chained) :
    (chain.insert operator operand).links = chain.links ++ [(operator, operand)] := by
  induction chain with
  | leaf tree => rfl
  | node left other right _ ih =>
    rw [insert]
    split
    · rw [links, first_insert, ih, links, List.append_assoc, List.cons_append]
    · rfl

theorem root?_insert (operator : Operator) (operand : Tree) (chain : Chained) :
    ∀ other ∈ (chain.insert operator operand).root?,
      other = operator ∨ other ∈ chain.root? ∧ other.precedence < operator.precedence := by
  cases chain with
  | leaf tree =>
    intro other h
    exact .inl (Option.some.inj h).symm
  | node left top right =>
    rw [insert]
    split
    · rename_i hlt
      intro other h
      cases h
      exact .inr ⟨rfl, hlt⟩
    · intro other h
      exact .inl (Option.some.inj h).symm

theorem Ordered.insert {chain : Chained} (h : chain.Ordered) (operator : Operator) (operand : Tree) :
    (chain.insert operator operand).Ordered := by
  induction chain with
  | leaf tree => exact ⟨trivial, trivial, nofun, nofun⟩
  | node left other right _ ih =>
    obtain ⟨hl, hr, hle, hlt⟩ := ordered_node_iff.mp h
    rw [Chained.insert]
    split
    · rename_i hp
      refine ordered_node_iff.mpr ⟨hl, ih hr, hle, fun top htop => ?_⟩
      rcases root?_insert operator operand right top htop with rfl | ⟨hroot, -⟩
      · exact hp
      · exact hlt top hroot
    · rename_i hp
      refine ordered_node_iff.mpr ⟨h, trivial, fun top htop => ?_, nofun⟩
      cases htop
      exact Nat.le_of_not_lt hp

/-- The chain with more links. -/
def grow (chain : Chained) (links : List (Operator × Tree)) : Chained :=
  links.foldl (fun chain link => chain.insert link.1 link.2) chain

theorem grow_append (chain : Chained) (links more : List (Operator × Tree)) :
    chain.grow (links ++ more) = (chain.grow links).grow more :=
  List.foldl_append

theorem le_links_of_le_root? {chain : Chained} {bound : Nat}
    (hroot : ∀ top ∈ chain.root?, bound ≤ top.precedence)
    (h : ∀ top ∈ chain.root?, ∀ link ∈ chain.links, top.precedence ≤ link.1.precedence) :
    ∀ link ∈ chain.links, bound ≤ link.1.precedence := by
  intro link hlink
  cases chain with
  | leaf tree => cases hlink
  | node left operator right => exact Nat.le_trans (hroot operator rfl) (h operator rfl link hlink)

/-- All operators of a chain bind at least as tightly as its root. -/
theorem Ordered.precedence_le {chain : Chained} (h : chain.Ordered) :
    ∀ top ∈ chain.root?, ∀ link ∈ chain.links, top.precedence ≤ link.1.precedence := by
  induction chain with
  | leaf tree => exact nofun
  | node left operator right ihl ihr =>
    obtain ⟨hl, hr, hle, hlt⟩ := ordered_node_iff.mp h
    intro top htop link hlink
    cases htop
    rcases List.mem_append.mp hlink with hm | hm
    · exact le_links_of_le_root? hle (ihl hl) link hm
    · rcases List.mem_cons.mp hm with rfl | hm
      · exact Nat.le_refl _
      · exact le_links_of_le_root? (fun other ho => Nat.le_of_lt (hlt other ho)) (ihr hr) link hm

theorem Ordered.precedence_lt {left right : Chained} {operator : Operator}
    (h : (node left operator right).Ordered) :
    ∀ link ∈ right.links, operator.precedence < link.1.precedence := by
  intro link hlink
  cases right with
  | leaf tree => cases hlink
  | node l o r =>
    obtain ⟨-, hr, -, hlt⟩ := ordered_node_iff.mp h
    exact Nat.lt_of_lt_of_le (hlt o rfl) (hr.precedence_le o rfl link hlink)

theorem grow_node {left right : Chained} {operator : Operator} {links : List (Operator × Tree)}
    (h : ∀ link ∈ links, operator.precedence < link.1.precedence) :
    (node left operator right).grow links = node left operator (right.grow links) := by
  induction links generalizing right with
  | nil => rfl
  | cons link links ih =>
    have hlink := h link List.mem_cons_self
    change ((node left operator right).insert link.1 link.2).grow links = _
    rw [insert, if_pos hlink, ih fun other ho => h other (List.mem_cons_of_mem link ho)]
    rfl

/-- An ordered chain is the one that its links build; there is no other with the same links. -/
theorem Ordered.eq_grow {chain : Chained} (h : chain.Ordered) :
    chain = (leaf chain.first).grow chain.links := by
  induction chain with
  | leaf tree => rfl
  | node left operator right ihl ihr =>
    have hlt := h.precedence_lt
    obtain ⟨hl, hr, hle, -⟩ := ordered_node_iff.mp h
    have hinsert : left.insert operator right.first = node left operator (leaf right.first) := by
      cases left with
      | leaf tree => rfl
      | node l o r => rw [Chained.insert, if_neg (Nat.not_lt.mpr (hle o rfl))]
    rw [first, links, grow_append, ← ihl hl]
    change _ = (left.insert operator right.first).grow right.links
    rw [hinsert, grow_node hlt, ← ihr hr]

theorem first_grow (chain : Chained) (links : List (Operator × Tree)) :
    (chain.grow links).first = chain.first := by
  induction links generalizing chain with
  | nil => rfl
  | cons link links ih => exact (ih _).trans (first_insert link.1 link.2 chain)

theorem links_grow (chain : Chained) (links : List (Operator × Tree)) :
    (chain.grow links).links = chain.links ++ links := by
  induction links generalizing chain with
  | nil => exact (List.append_nil _).symm
  | cons link links ih =>
    refine (ih (chain.insert link.1 link.2)).trans ?_
    rw [links_insert, List.append_assoc]
    rfl

theorem Ordered.grow {chain : Chained} (h : chain.Ordered) (links : List (Operator × Tree)) :
    (chain.grow links).Ordered := by
  induction links generalizing chain with
  | nil => exact h
  | cons link links ih => exact ih (h.insert link.1 link.2)

/-- The chain with a function of its first operand. -/
def withCall (function : NamedFunction) : Chained → Chained
  | leaf tree => leaf (tree.withCall function)
  | node left operator right => node (left.withCall function) operator right

theorem tree_withCall (function : NamedFunction) (chain : Chained) :
    (chain.withCall function).tree = chain.tree.withCall function := by
  induction chain with
  | leaf start => rfl
  | node left operator right ihl _ =>
    rw [withCall, tree, ihl]
    rfl

theorem insert_withCall (function : NamedFunction) (operator : Operator) (operand : Tree)
    (chain : Chained) :
    (chain.withCall function).insert operator operand =
      (chain.insert operator operand).withCall function := by
  cases chain with
  | leaf start => rfl
  | node left other right =>
    rw [insert, withCall, insert]
    split <;> rfl

theorem grow_withCall (function : NamedFunction) (chain : Chained)
    (links : List (Operator × Tree)) :
    (chain.withCall function).grow links = (chain.grow links).withCall function := by
  induction links generalizing chain with
  | nil => rfl
  | cons link links ih =>
    change ((chain.withCall function).insert link.1 link.2).grow links = _
    rw [insert_withCall, ih]
    rfl

/-- The first operand of a chain is the first of its tree. -/
theorem tree_grow_withCalls (functions : List NamedFunction) (start : Tree)
    (links : List (Operator × Tree)) :
    ((leaf (start.withCalls functions)).grow links).tree =
      ((leaf start).grow links).tree.withCalls functions := by
  induction functions generalizing start with
  | nil => rfl
  | cons function functions ih =>
    change ((leaf ((start.withCall function).withCalls functions)).grow links).tree = _
    rw [ih, show leaf (start.withCall function) = (leaf start).withCall function from rfl,
      grow_withCall, tree_withCall]
    rfl

end Chained

end Calculator
