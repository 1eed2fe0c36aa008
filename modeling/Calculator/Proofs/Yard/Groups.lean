import Calculator.Proofs.Conversion.Spelled
import Calculator.Proofs.Grammar.Meaning
import Calculator.Proofs.Yard.Chains

/-!
# Groups in the yard

A primary leaves the postorder of its tree behind and nothing else. A group may keep a
part of its postorder waiting, above what it found on the stack; the closing
parenthesis or the end lets that part leave. At most one function waits when a group
begins, and its first operand takes that function along.
-/
namespace Calculator

namespace ShuntingYard

variable {nodes : List Node} {stack base : List Waiting} {functions : List NamedFunction}

theorem add_value (value : Value)
    (h : ∀ number, value = .literal number → stack.head? ≠ some .negation) :
    (of nodes stack functions).add (.operand value) =
      .ok (of (nodes ++ value.nodes ++ released functions) stack (functions.drop 1)) := by
  cases value with
  | literal number => exact add_literal number (h number rfl)
  | answered number => exact add_answered number

/-- A literal has a sign directly before it, or an operand leaves the stack alone. -/
theorem behindSign_or_not (value : Value) (stack : List Waiting) :
    (∃ number rest, value = .literal number ∧ stack = .negation :: rest) ∨
      ∀ number, value = .literal number → stack.head? ≠ some .negation := by
  by_cases h : ∃ number, value = .literal number ∧ stack.head? = some .negation
  · obtain ⟨number, hv, hs⟩ := h
    obtain ⟨rest, hr⟩ := List.head?_eq_some_iff.mp hs
    exact .inl ⟨number, rest, hv, hr⟩
  · exact .inr fun number hv hs => h ⟨number, hv, hs⟩

theorem postorder_operand_withCalls (h : functions.length ≤ 1) (value : Value) :
    ((Tree.operand value).withCalls functions).postorder = value.nodes ++ released functions := by
  rcases functions with _ | ⟨function, _ | ⟨other, rest⟩⟩
  · exact (List.append_nil _).symm
  · rfl
  · exact absurd h (by simp)

theorem postorder_signed_withCalls (h : functions.length ≤ 1) (number : Float) :
    ((Tree.signed number).withCalls functions).postorder =
      [.number number, .negation] ++ released functions := by
  rcases functions with _ | ⟨function, _ | ⟨other, rest⟩⟩
  · rfl
  · rfl
  · exact absurd h (by simp)

/-- The yard has let a part of a postorder leave and keeps the rest waiting, above what there was
before. -/
def Holds (yard : ShuntingYard) (nodes : List Node) (base : List Waiting) (tree : Tree) : Prop :=
  ∃ settled entries, .parenthesis ∉ entries ∧
    settled ++ entries.filterMap Waiting.node? = tree.postorder ∧
    yard = of (nodes ++ settled) (entries ++ base) []

theorem filterMap_node?_map (operators : List Operator) :
    (operators.map Waiting.operation).filterMap Waiting.node? = operators.map Node.operation := by
  induction operators with
  | nil => rfl
  | cons operator operators ih =>
    have hn : (Waiting.operation operator).node? = some (.operation operator) := rfl
    rw [List.map_cons, List.filterMap_cons_some hn, ih, List.map_cons]

theorem parenthesis_not_mem_map (operators : List Operator) :
    .parenthesis ∉ operators.map Waiting.operation := by
  intro h
  obtain ⟨operator, -, he⟩ := List.mem_map.mp h
  cases he

theorem holds_between (nodes : List Node) (base : List Waiting) (chain : Chained) :
    (between nodes base chain).Holds nodes base chain.tree := by
  refine ⟨chain.settled, chain.edge.map .operation, parenthesis_not_mem_map _, ?_, rfl⟩
  rw [filterMap_node?_map, chain.postorder_tree]

theorem holds_between_negation (nodes : List Node) (base : List Waiting) (chain : Chained) :
    (between nodes (.negation :: base) chain).Holds nodes base (.negation chain.tree) := by
  refine ⟨chain.settled, chain.edge.map .operation ++ [.negation], ?_, ?_, ?_⟩
  · simp
  · rw [List.filterMap_append, filterMap_node?_map, ← List.append_assoc, ← chain.postorder_tree]
    rfl
  · rw [between, List.append_assoc]
    rfl

theorem Holds.add_closing {yard : ShuntingYard} {tree : Tree}
    (h : yard.Holds nodes (.parenthesis :: base) tree) :
    yard.add .closing = .ok (of (nodes ++ tree.postorder) base []) := by
  obtain ⟨settled, entries, hp, ht, rfl⟩ := h
  rw [ShuntingYard.add_closing hp, accompanied_nil, List.append_assoc, ht, List.drop_nil]

theorem Holds.finish {yard : ShuntingYard} {tree : Tree} (h : yard.Holds [] [] tree) :
    yard.finish = .ok tree.postorder := by
  obtain ⟨settled, entries, hp, ht, rfl⟩ := h
  rw [List.append_nil, finish_of hp, List.map_nil, List.append_nil, List.nil_append, ht]

theorem addAll_append_of_eq {yard after : ShuntingYard} {marks : List (Mark Value)}
    (h : yard.addAll marks = .ok after) (more : List (Mark Value)) :
    yard.addAll (marks ++ more) = after.addAll more := by
  rw [addAll_append, h]
  rfl

theorem addAll_cons_of_eq {yard after : ShuntingYard} {mark : Mark Value}
    (h : yard.add mark = .ok after) (marks : List (Mark Value)) :
    yard.addAll (mark :: marks) = after.addAll marks := by
  rw [addAll_cons, h]
  rfl

/-- The marks between two parentheses leave the postorder behind that they hold. -/
theorem addAll_enclosed {yard : ShuntingYard} {opener : Mark Value}
    {opened held : List NamedFunction} {marks : List (Mark Value)} {tree : Tree}
    (ho : yard.add opener = .ok (of nodes (.parenthesis :: stack) opened))
    (h : ∃ after, (of nodes (.parenthesis :: stack) opened).addAll marks = .ok after ∧
      after.Holds nodes (.parenthesis :: stack) (tree.withCalls held)) :
    yard.addAll (opener :: marks ++ [.closing]) =
      .ok (of (nodes ++ (tree.withCalls held).postorder) stack []) := by
  obtain ⟨after, ha, hh⟩ := h
  rw [List.cons_append, addAll_cons_of_eq ho, addAll_append_of_eq ha,
    addAll_cons_of_eq hh.add_closing]
  rfl

end ShuntingYard

open ShuntingYard

section Chain

variable {nodes : List Node} {base stack : List Waiting} {functions : List NamedFunction}
  {first : Primary Value} {links : Links Value}

/-- The links of a chain, behind the first operand. -/
theorem Links.addAll_behind (hs : ∀ top, stack.head? ≠ some (.operation top))
    (hlinks : ∀ stack chain, (∀ top, stack.head? ≠ some (.operation top)) → chain.Ordered →
      (between nodes stack chain).addAll links.marks =
        .ok (between nodes stack (chain.grow links.trees)))
    {yard : ShuntingYard} {marks : List (Mark Value)} {start : Tree}
    (hfirst : yard.addAll marks =
      .ok (of (nodes ++ (start.withCalls functions).postorder) stack [])) :
    yard.addAll (marks ++ links.marks) =
      .ok (between nodes stack ((Chained.leaf (start.withCalls functions)).grow links.trees)) := by
  rw [addAll_append_of_eq hfirst]
  exact hlinks stack (.leaf (start.withCalls functions)) hs trivial

theorem Group.marks_signed (first : Primary Value) (links : Links Value) :
    (Group.mk true first links).marks = .sign :: (first.marks ++ links.marks) := rfl

/-- A chain holds the tree of its group, once its first operand has left. -/
theorem Group.holds_mk (hf : functions.length ≤ 1) (hbase : ∀ top ∈ base.head?, top = .parenthesis)
    (hfirst : ∀ stack,
      (∀ number, first = .operand (.literal number) → stack.head? ≠ some .negation) →
      (of nodes stack functions).addAll first.marks =
        .ok (of (nodes ++ (first.tree.withCalls functions).postorder) stack []))
    (hlinks : ∀ stack chain, (∀ top, stack.head? ≠ some (.operation top)) → chain.Ordered →
      (between nodes stack chain).addAll links.marks =
        .ok (between nodes stack (chain.grow links.trees))) (signed : Bool) :
    ∃ after, (of nodes base functions).addAll (Group.mk signed first links).marks = .ok after ∧
      after.Holds nodes base ((Group.mk signed first links).tree.withCalls functions) := by
  have hb : ∀ top, base.head? ≠ some (.operation top) := by
    intro top ht
    cases hbase _ ht
  have hn : base.head? ≠ some .negation := by
    intro ht
    cases hbase _ ht
  cases signed with
  | false =>
    have hh := holds_between nodes base
      ((Chained.leaf (first.tree.withCalls functions)).grow links.trees)
    rw [Chained.tree_grow_withCalls] at hh
    exact ⟨_, Links.addAll_behind hb hlinks (hfirst base fun _ _ => hn), hh⟩
  | true =>
    rw [Group.marks_signed, addAll_cons_of_eq add_sign]
    by_cases hl : ∃ number, first = .operand (.literal number)
    · obtain ⟨number, rfl⟩ := hl
      have hh := holds_between nodes base
        ((Chained.leaf ((Tree.signed number).withCalls functions)).grow links.trees)
      rw [Chained.tree_grow_withCalls] at hh
      refine ⟨_, Links.addAll_behind hb hlinks ?_, hh⟩
      have hd : functions.drop 1 = [] := List.drop_eq_nil_of_le hf
      rw [Primary.marks, addAll_cons_of_eq (add_literal_negation number),
        postorder_signed_withCalls hf, hd]
      simp only [List.append_assoc]
      rfl
    · have hne : ∀ number, first ≠ .operand (.literal number) := fun number he => hl ⟨number, he⟩
      have hh := holds_between_negation nodes base
        ((Chained.leaf (first.tree.withCalls functions)).grow links.trees)
      rw [Chained.tree_grow_withCalls] at hh
      rw [Group.tree_signed_of_not_literal hne, Tree.withCalls_negation]
      exact ⟨_, Links.addAll_behind (fun top ht => by cases ht) hlinks
        (hfirst (.negation :: base) fun number he => absurd he (hne number)), hh⟩

end Chain

/-! ## What the yard makes of a group -/

mutual

theorem Group.addAll_marks : ∀ group : Group Value, group.Spaced →
    ∀ (nodes : List Node) (base : List Waiting) (functions : List NamedFunction),
      functions.length ≤ 1 → (functions ≠ [] → group.Bare) →
      (∀ top ∈ base.head?, top = .parenthesis) →
        ∃ after, (of nodes base functions).addAll group.marks = .ok after ∧
          after.Holds nodes base (group.tree.withCalls functions)
  | .mk _ first links, hs, nodes, _, functions, hf, hbare, hbase =>
    Group.holds_mk hf hbase (first.addAll_marks hs.1 nodes · functions hf hbare)
      (links.addAll_marks hs.2 nodes) _

theorem Links.addAll_marks : ∀ links : Links Value, links.Spaced →
    ∀ (nodes : List Node) (base : List Waiting) (chain : Chained),
      (∀ top, base.head? ≠ some (.operation top)) → chain.Ordered →
        (between nodes base chain).addAll links.marks =
          .ok (between nodes base (chain.grow links.trees))
  | .nil, _, _, _, _, _, _ => rfl
  | .link links operator primary, hs, nodes, base, chain, hb, ho => by
    have hp := primary.addAll_marks hs.2
      (nodes ++ (chain.grow links.trees).settled ++
        ((chain.grow links.trees).leaving operator).map Node.operation)
      ((operator :: (chain.grow links.trees).staying operator).map Waiting.operation ++ base) []
      (Nat.zero_le 1) (fun h => absurd rfl h) nofun
    rw [Links.marks, addAll_append_of_eq (links.addAll_marks hs.1 nodes base chain hb ho),
      addAll_cons_of_eq (add_operation_between hb _ operator), hp, Links.trees, Chained.grow_append]
    exact congrArg _ (between_insert (ho.grow links.trees) operator primary.tree nodes base).symm

theorem Primary.addAll_marks : ∀ primary : Primary Value, primary.Spaced →
    ∀ (nodes : List Node) (stack : List Waiting) (functions : List NamedFunction),
      functions.length ≤ 1 → (functions ≠ [] → primary.Bare) →
      (∀ number, primary = .operand (.literal number) → stack.head? ≠ some .negation) →
        (of nodes stack functions).addAll primary.marks =
          .ok (of (nodes ++ (primary.tree.withCalls functions).postorder) stack [])
  | .operand value, _, nodes, stack, functions, hf, _, hn => by
    have ha : (of nodes stack functions).add (.operand value) = _ :=
      add_value value fun number hv => hn number (congrArg _ hv)
    have hd : functions.drop 1 = [] := List.drop_eq_nil_of_le hf
    rw [Primary.marks, addAll_cons_of_eq ha, Primary.tree, postorder_operand_withCalls hf, hd,
      List.append_assoc]
    rfl
  | .enclosed group, hs, nodes, stack, functions, hf, hbare, _ => by
    have hg := group.addAll_marks hs nodes (.parenthesis :: stack) functions hf hbare
      fun top ht => (Option.some.inj ht).symm
    exact addAll_enclosed add_opening hg
  | .call function group, hs, nodes, stack, functions, hf, hbare, _ => by
    have hnil : functions = [] := by
      by_contra hne
      exact hbare hne
    subst hnil
    have hg := group.addAll_marks hs.2 nodes (.parenthesis :: stack) [function] (Nat.le_refl 1)
      (fun _ => hs.1) fun top ht => (Option.some.inj ht).symm
    exact addAll_enclosed (add_call function) hg

end

end Calculator
