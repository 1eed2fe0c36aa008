import Calculator.Proofs.Dialogue.Play
import Calculator.Proofs.Grammar.Group
import Calculator.Proofs.Grammar.Precedence

/-!
# The tree of a group

A group means the tree of its chain. A sign directly before a literal belongs to the
literal alone and any other sign to the whole chain. A function is applied to the first
operand of its argument only. The tree is pinned by the order of binding alone: of all
trees over the operands and operators of a group only one is ordered.
-/
namespace Calculator

mutual

def Group.tree : Group Value → Tree
  | .mk signed first links =>
    match signed, first with
    | true, .operand (.literal value) => ((Chained.leaf (.signed value)).grow links.trees).tree
    | true, _ => .negation ((Chained.leaf first.tree).grow links.trees).tree
    | false, _ => ((Chained.leaf first.tree).grow links.trees).tree

def Links.trees : Links Value → List (Operator × Tree)
  | .nil => []
  | .link links operator primary => links.trees ++ [(operator, primary.tree)]

def Primary.tree : Primary Value → Tree
  | .operand value => .operand value
  | .enclosed group => group.tree
  | .call function group => group.tree.withCall function

end

theorem Group.tree_signed_of_not_literal {first : Primary Value}
    (h : ∀ number, first ≠ .operand (.literal number)) (links : Links Value) :
    (Group.mk true first links).tree =
      .negation ((Chained.leaf first.tree).grow links.trees).tree := by
  cases first with
  | operand value =>
    cases value with
    | literal number => exact absurd rfl (h number)
    | answered number => rfl
  | enclosed group => rfl
  | call function group => rfl

/-! ## The trees that the order of binding admits -/

mutual

/-- The group has the tree of an ordered chain over its operands, with its operators in their
places. -/
inductive Group.Means : Group Value → Tree → Prop
  | signedLiteral {number : Float} {links : Links Value} {chain : Chained} (ordered : chain.Ordered)
      (head : chain.first = .signed number) (tail : links.Mean chain.links) :
      Group.Means (.mk true (.operand (.literal number)) links) chain.tree
  | signed {first : Primary Value} {links : Links Value} {chain : Chained}
      (other : ∀ number, first ≠ .operand (.literal number)) (ordered : chain.Ordered)
      (head : first.Means chain.first) (tail : links.Mean chain.links) :
      Group.Means (.mk true first links) (.negation chain.tree)
  | unsigned {first : Primary Value} {links : Links Value} {chain : Chained}
      (ordered : chain.Ordered) (head : first.Means chain.first) (tail : links.Mean chain.links) :
      Group.Means (.mk false first links) chain.tree

inductive Links.Mean : Links Value → List (Operator × Tree) → Prop
  | nil : Links.Mean .nil []
  | link {links : Links Value} {trees : List (Operator × Tree)} {operator : Operator}
      {primary : Primary Value} {tree : Tree} (init : links.Mean trees)
      (last : primary.Means tree) :
      Links.Mean (.link links operator primary) (trees ++ [(operator, tree)])

inductive Primary.Means : Primary Value → Tree → Prop
  | operand (value : Value) : Primary.Means (.operand value) (.operand value)
  | enclosed {group : Group Value} {tree : Tree} (inner : group.Means tree) :
      Primary.Means (.enclosed group) tree
  | call {function : NamedFunction} {group : Group Value} {tree : Tree}
      (argument : group.Means tree) :
      Primary.Means (.call function group) (tree.withCall function)

end

mutual

theorem Group.means_tree : ∀ group : Group Value, group.Means group.tree
  | .mk signed first links => by
    have hleaf (start : Tree) : (Chained.leaf start).Ordered := trivial
    have hordered (start : Tree) : ((Chained.leaf start).grow links.trees).Ordered :=
      (hleaf start).grow links.trees
    have htail (start : Tree) : links.Mean ((Chained.leaf start).grow links.trees).links := by
      rw [Chained.links_grow]
      exact links.mean_trees
    have hhead (start : Tree) : ((Chained.leaf start).grow links.trees).first = start :=
      Chained.first_grow (.leaf start) links.trees
    cases signed with
    | false => exact .unsigned (hordered _) ((hhead _).symm ▸ first.means_tree) (htail _)
    | true =>
      by_cases hl : ∃ number, first = .operand (.literal number)
      · obtain ⟨number, rfl⟩ := hl
        exact .signedLiteral (hordered _) (hhead _) (htail _)
      · have hne : ∀ number, first ≠ .operand (.literal number) := fun number he => hl ⟨number, he⟩
        rw [Group.tree_signed_of_not_literal hne]
        exact .signed hne (hordered _) ((hhead _).symm ▸ first.means_tree) (htail _)

theorem Links.mean_trees : ∀ links : Links Value, links.Mean links.trees
  | .nil => .nil
  | .link links _ primary => .link links.mean_trees primary.means_tree

theorem Primary.means_tree : ∀ primary : Primary Value, primary.Means primary.tree
  | .operand value => .operand value
  | .enclosed group => .enclosed group.means_tree
  | .call _ group => .call group.means_tree

end

mutual

/-- An ordered chain is the one that its links build, so there is no second tree. -/
theorem Group.Means.eq_tree : ∀ {group : Group Value} {tree : Tree}, group.Means tree →
    tree = group.tree
  | .mk _ _ _, _, .signedLiteral ordered head tail => by
    rw [ordered.eq_grow, head, tail.eq_trees]
    rfl
  | .mk _ _ _, _, .signed other ordered head tail => by
    rw [ordered.eq_grow, head.eq_tree, tail.eq_trees, Group.tree_signed_of_not_literal other]
  | .mk _ _ _, _, .unsigned ordered head tail => by
    rw [ordered.eq_grow, head.eq_tree, tail.eq_trees]
    rfl

theorem Links.Mean.eq_trees : ∀ {links : Links Value} {trees : List (Operator × Tree)},
    links.Mean trees → trees = links.trees
  | .nil, _, .nil => rfl
  | .link _ _ _, _, .link init last => by rw [init.eq_trees, last.eq_tree, Links.trees]

theorem Primary.Means.eq_tree : ∀ {primary : Primary Value} {tree : Tree}, primary.Means tree →
    tree = primary.tree
  | .operand _, _, .operand _ => rfl
  | .enclosed _, _, .enclosed inner => inner.eq_tree
  | .call _ _, _, .call argument => by rw [argument.eq_tree, Primary.tree]

end

variable {α β : Type}

mutual

/-- The first operand stands before all calls. -/
def Group.Bare : Group α → Prop
  | .mk _ first _ => first.Bare

def Primary.Bare : Primary α → Prop
  | .operand _ => True
  | .enclosed group => group.Bare
  | .call _ _ => False

end

mutual

/-- No call opens between another call and the first operand of that call. -/
def Group.Spaced : Group α → Prop
  | .mk _ first links => first.Spaced ∧ links.Spaced

def Links.Spaced : Links α → Prop
  | .nil => True
  | .link links _ primary => links.Spaced ∧ primary.Spaced

def Primary.Spaced : Primary α → Prop
  | .operand _ => True
  | .enclosed group => group.Spaced
  | .call _ group => group.Bare ∧ group.Spaced

end

/-! ## Valued groups have the form of the group -/

section Valued

variable {σ : Type} {f : α → Answering σ β}

theorem Group.run_mapM_eq_ok {signed : Bool} {first : Primary α} {links : Links α} {state after : σ}
    {valued : Group β} (h : ((Group.mk signed first links).mapM f).run state = .ok (valued, after)) :
    ∃ first' between links', (first.mapM f).run state = .ok (first', between) ∧
      (links.mapM f).run between = .ok (links', after) ∧ valued = .mk signed first' links' := by
  rw [Group.mapM, Answering.run_bind_eq_ok_iff] at h
  obtain ⟨first', between, hf, h⟩ := h
  rw [Answering.run_bind_eq_ok_iff] at h
  obtain ⟨links', last, hl, h⟩ := h
  cases h
  exact ⟨first', between, links', hf, hl, rfl⟩

mutual

theorem Group.Bare.valued : ∀ {group : Group α}, group.Bare → ∀ {state after : σ} {valued : Group β},
    (group.mapM f).run state = .ok (valued, after) → valued.Bare
  | .mk _ _ _, hb, _, _, _, h => by
    obtain ⟨first', between, links', hf, -, rfl⟩ := Group.run_mapM_eq_ok h
    exact Primary.Bare.valued hb hf

theorem Primary.Bare.valued : ∀ {primary : Primary α}, primary.Bare →
    ∀ {state after : σ} {valued : Primary β},
      (primary.mapM f).run state = .ok (valued, after) → valued.Bare
  | .operand _, _, _, _, _, h => by
    rw [Primary.mapM, Answering.run_map_eq_ok_iff] at h
    obtain ⟨value, -, rfl⟩ := h
    trivial
  | .enclosed _, hb, _, _, _, h => by
    rw [Primary.mapM, Answering.run_map_eq_ok_iff] at h
    obtain ⟨inner, hi, rfl⟩ := h
    exact Group.Bare.valued hb hi

end

mutual

theorem Group.Spaced.valued : ∀ {group : Group α}, group.Spaced →
    ∀ {state after : σ} {valued : Group β},
      (group.mapM f).run state = .ok (valued, after) → valued.Spaced
  | .mk _ _ _, hs, _, _, _, h => by
    obtain ⟨first', between, links', hf, hl, rfl⟩ := Group.run_mapM_eq_ok h
    exact ⟨Primary.Spaced.valued hs.1 hf, Links.Spaced.valued hs.2 hl⟩

theorem Links.Spaced.valued : ∀ {links : Links α}, links.Spaced →
    ∀ {state after : σ} {valued : Links β},
      (links.mapM f).run state = .ok (valued, after) → valued.Spaced
  | .nil, _, _, _, _, h => by
    cases h
    trivial
  | .link _ _ _, hs, _, _, _, h => by
    rw [Links.mapM, Answering.run_bind_eq_ok_iff] at h
    obtain ⟨links', between, hl, h⟩ := h
    rw [Answering.run_bind_eq_ok_iff] at h
    obtain ⟨primary', last, hp, h⟩ := h
    cases h
    exact ⟨Links.Spaced.valued hs.1 hl, Primary.Spaced.valued hs.2 hp⟩

theorem Primary.Spaced.valued : ∀ {primary : Primary α}, primary.Spaced →
    ∀ {state after : σ} {valued : Primary β},
      (primary.mapM f).run state = .ok (valued, after) → valued.Spaced
  | .operand _, _, _, _, _, h => by
    rw [Primary.mapM, Answering.run_map_eq_ok_iff] at h
    obtain ⟨value, -, rfl⟩ := h
    trivial
  | .enclosed _, hs, _, _, _, h => by
    rw [Primary.mapM, Answering.run_map_eq_ok_iff] at h
    obtain ⟨inner, hi, rfl⟩ := h
    exact Group.Spaced.valued hs hi
  | .call _ _, hs, _, _, _, h => by
    rw [Primary.mapM, Answering.run_map_eq_ok_iff] at h
    obtain ⟨inner, hi, rfl⟩ := h
    exact ⟨Group.Bare.valued hs.1 hi, Group.Spaced.valued hs.2 hi⟩

end

end Valued

end Calculator
