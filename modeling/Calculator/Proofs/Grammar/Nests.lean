import Calculator.Proofs.Grammar.Meaning

/-!
# Nests of calls

The argument of a call may be a call again and nothing else. The innermost function of
such a nest has an operand for its argument. The outer ones still have to leave when the
nest is closed, and what stands behind the nest decides whether they are the next to do so.
-/
namespace Calculator

variable {α β : Type}

/-- How the functions of an expression leave. -/
inductive Pace where
  /-- Every function has left behind its argument. -/
  | inStep
  /-- The outer functions of the last nest are to leave next. -/
  | behind
  /-- Something else has left where a function had to. -/
  | apart
deriving DecidableEq

namespace Pace

/-- The pace behind a further operand, whose own pace is the second. -/
def followedBy : Pace → Pace → Pace
  | inStep, next => next
  | _, _ => apart

/-- The pace behind a closing parenthesis. It lets operators and signs leave, unless an operand is
alone in it. -/
def closed (alone : Bool) : Pace → Pace
  | inStep => inStep
  | behind => if alone then behind else apart
  | apart => apart

end Pace

mutual

theorem Group.exists_operand : ∀ group : Group α, ∃ a, .operand a ∈ group.marks
  | .mk signed first links => by
    obtain ⟨a, ha⟩ := first.exists_operand
    exact ⟨a, List.mem_append_left _ (List.mem_append_right _ ha)⟩

theorem Primary.exists_operand : ∀ primary : Primary α, ∃ a, .operand a ∈ primary.marks
  | .operand a => ⟨a, List.mem_singleton_self _⟩
  | .enclosed group => by
    obtain ⟨a, ha⟩ := group.exists_operand
    exact ⟨a, List.mem_append_left _ (List.mem_cons_of_mem _ ha)⟩
  | .call _ group => by
    obtain ⟨a, ha⟩ := group.exists_operand
    exact ⟨a, List.mem_append_left _ (List.mem_cons_of_mem _ ha)⟩

end

/-- Whether the group is an operand, with a sign or without. -/
def Group.isOperand : Group α → Bool
  | .mk _ (.operand _) .nil => true
  | _ => false

/-- Whether the group is a primary without a sign. -/
def Group.isAlone : Group α → Bool
  | .mk false _ .nil => true
  | _ => false

mutual

/-- The pace at the end of a group: it falls behind with a nest, and is lost if more than
parentheses around it follows. -/
def Group.pace : Group α → Pace
  | .mk _ first links => links.pace first.pace

def Links.pace : Links α → Pace → Pace
  | .nil, pace => pace
  | .link links _ primary, pace => (links.pace pace).followedBy primary.pace

def Primary.pace : Primary α → Pace
  | .operand _ => .inStep
  | .enclosed group => group.pace.closed group.isAlone
  | .call _ group => if group.isOperand then .inStep else .behind

end

mutual

/-- The group is an operand, with a sign only if it is a literal, or a call of such a group. -/
def Group.Argument (literal : α → Prop) : Group α → Prop
  | .mk signed first .nil => first.Argument literal signed
  | .mk _ _ (.link _ _ _) => False

def Primary.Argument (literal : α → Prop) : Primary α → Bool → Prop
  | .operand a, signed => signed = true → literal a
  | .enclosed _, _ => False
  | .call _ group, signed => signed = false ∧ group.Argument literal

end

mutual

/-- Every call has such an argument. -/
def Group.Direct (literal : α → Prop) : Group α → Prop
  | .mk _ first links => first.Direct literal ∧ links.Direct literal

def Links.Direct (literal : α → Prop) : Links α → Prop
  | .nil => True
  | .link links _ primary => links.Direct literal ∧ primary.Direct literal

def Primary.Direct (literal : α → Prop) : Primary α → Prop
  | .operand _ => True
  | .enclosed group => group.Direct literal
  | .call _ group => group.Argument literal

end

/-! ## The tree in which every function is applied to its own argument -/

def Value.IsLiteral : Value → Prop
  | .literal _ => True
  | .answered _ => False

mutual

/-- The tree of a group whose functions take their whole argument. -/
def Group.applied : Group Value → Tree
  | .mk signed first links =>
    match signed, first with
    | true, .operand (.literal value) => ((Chained.leaf (.signed value)).grow links.applied).tree
    | true, _ => .negation ((Chained.leaf first.applied).grow links.applied).tree
    | false, _ => ((Chained.leaf first.applied).grow links.applied).tree

def Links.applied : Links Value → List (Operator × Tree)
  | .nil => []
  | .link links operator primary => links.applied ++ [(operator, primary.applied)]

def Primary.applied : Primary Value → Tree
  | .operand value => .operand value
  | .enclosed group => group.applied
  | .call function group => .call function group.applied

end

/-- The operand of a nest and its innermost function; `function` is the one that the group is the
argument of. -/
def Group.core (function : NamedFunction) : Group Value → List Node
  | .mk _ (.call inner group) _ => group.core inner
  | group => group.applied.postorder ++ [.call function]

/-- The other functions of a nest, the innermost at the head. -/
def Group.outer (function : NamedFunction) : Group Value → List NamedFunction
  | .mk _ (.call inner group) _ => group.outer inner ++ [function]
  | _ => []

theorem Group.core_append_outer : ∀ {group : Group Value} (function : NamedFunction),
    group.Argument Value.IsLiteral →
      group.core function ++ (group.outer function).map Node.call =
        (Primary.call function group).applied.postorder
  | .mk _ (.operand _) .nil, _, _ => List.append_nil _
  | .mk _ (.call inner group) .nil, function, h => by
    obtain ⟨rfl, hgroup⟩ := h
    have hinner := Group.core_append_outer inner hgroup
    rw [Group.core, Group.outer, List.map_append, ← List.append_assoc, hinner]
    rfl
  | .mk _ (.enclosed _) .nil, _, h => h.elim
  | .mk _ _ (.link _ _ _), _, h => h.elim

theorem Group.outer_eq_nil_iff {group : Group Value} (h : group.Argument Value.IsLiteral)
    (function : NamedFunction) : group.outer function = [] ↔ group.isOperand = true := by
  obtain ⟨signed, first, links⟩ := group
  cases links with
  | link links operator primary => exact h.elim
  | nil =>
    cases first with
    | operand value => exact ⟨fun _ => rfl, fun _ => rfl⟩
    | enclosed group => exact h.elim
    | call inner group => exact ⟨fun he => absurd he (by simp [Group.outer]), nofun⟩

mutual

/-- The cores of all nests, in their order. -/
def Group.cores : Group Value → List (List Node)
  | .mk _ first links => first.cores ++ links.cores

def Links.cores : Links Value → List (List Node)
  | .nil => []
  | .link links _ primary => links.cores ++ primary.cores

def Primary.cores : Primary Value → List (List Node)
  | .operand _ => []
  | .enclosed group => group.cores
  | .call function group => [group.core function]

end

/-- The pieces stand in the list in this order, each of them unbroken. -/
inductive Unbroken : List (List Node) → List Node → Prop
  | nil (nodes : List Node) : Unbroken [] nodes
  | cons (before piece : List Node) {pieces : List (List Node)} {behind : List Node}
      (h : Unbroken pieces behind) : Unbroken (piece :: pieces) (before ++ (piece ++ behind))

theorem Unbroken.append {pieces more : List (List Node)} {nodes behind : List Node}
    (h : Unbroken pieces nodes) (hmore : Unbroken more behind) :
    Unbroken (pieces ++ more) (nodes ++ behind) := by
  induction h with
  | nil nodes =>
    cases hmore with
    | nil => exact .nil _
    | cons before piece hrest =>
      rw [← List.append_assoc]
      exact .cons (nodes ++ before) piece hrest
  | cons before piece _ ih =>
    rw [List.append_assoc, List.append_assoc]
    exact .cons before piece ih

/-! ## Valued groups -/

section Valued

variable {σ : Type} {f : α → Answering σ β} {literal : α → Prop} {other : β → Prop}

theorem Links.run_mapM_eq_ok {links : Links α} {operator : Operator} {primary : Primary α}
    {state after : σ} {valued : Links β}
    (h : ((Links.link links operator primary).mapM f).run state = .ok (valued, after)) :
    ∃ links' between primary', (links.mapM f).run state = .ok (links', between) ∧
      (primary.mapM f).run between = .ok (primary', after) ∧
        valued = .link links' operator primary' := by
  rw [Links.mapM, Answering.run_bind_eq_ok_iff] at h
  obtain ⟨links', between, hl, h⟩ := h
  rw [Answering.run_bind_eq_ok_iff] at h
  obtain ⟨primary', last, hp, h⟩ := h
  cases h
  exact ⟨links', between, primary', hl, hp, rfl⟩

theorem Group.isOperand_of_mapM {group : Group α} {state after : σ} {valued : Group β}
    (h : (group.mapM f).run state = .ok (valued, after)) : valued.isOperand = group.isOperand := by
  obtain ⟨signed, first, links⟩ := group
  obtain ⟨first', between, links', hf, hl, rfl⟩ := Group.run_mapM_eq_ok h
  cases first with
  | operand a =>
    rw [Primary.mapM, Answering.run_map_eq_ok_iff] at hf
    obtain ⟨value, -, rfl⟩ := hf
    cases links with
    | nil =>
      cases hl
      rfl
    | link links operator primary =>
      obtain ⟨_, _, _, -, -, rfl⟩ := Links.run_mapM_eq_ok hl
      rfl
  | enclosed group =>
    rw [Primary.mapM, Answering.run_map_eq_ok_iff] at hf
    obtain ⟨inner, -, rfl⟩ := hf
    rfl
  | call function group =>
    rw [Primary.mapM, Answering.run_map_eq_ok_iff] at hf
    obtain ⟨inner, -, rfl⟩ := hf
    rfl

theorem Group.isAlone_of_mapM {group : Group α} {state after : σ} {valued : Group β}
    (h : (group.mapM f).run state = .ok (valued, after)) : valued.isAlone = group.isAlone := by
  obtain ⟨signed, first, links⟩ := group
  obtain ⟨first', between, links', -, hl, rfl⟩ := Group.run_mapM_eq_ok h
  cases links with
  | nil =>
    cases hl
    cases signed <;> rfl
  | link links operator primary =>
    obtain ⟨_, _, _, -, -, rfl⟩ := Links.run_mapM_eq_ok hl
    cases signed <;> rfl

mutual

theorem Group.pace_of_mapM : ∀ {group : Group α} {state after : σ} {valued : Group β},
    (group.mapM f).run state = .ok (valued, after) → valued.pace = group.pace
  | .mk _ _ _, _, _, _, h => by
    obtain ⟨first', between, links', hf, hl, rfl⟩ := Group.run_mapM_eq_ok h
    rw [Group.pace, Group.pace, Primary.pace_of_mapM hf, Links.pace_of_mapM hl]

theorem Links.pace_of_mapM : ∀ {links : Links α} {state after : σ} {valued : Links β},
    (links.mapM f).run state = .ok (valued, after) → valued.pace = links.pace
  | .nil, _, _, _, h => by
    cases h
    rfl
  | .link _ _ _, _, _, _, h => by
    obtain ⟨links', between, primary', hl, hp, rfl⟩ := Links.run_mapM_eq_ok h
    funext pace
    rw [Links.pace, Links.pace, Links.pace_of_mapM hl, Primary.pace_of_mapM hp]

theorem Primary.pace_of_mapM : ∀ {primary : Primary α} {state after : σ} {valued : Primary β},
    (primary.mapM f).run state = .ok (valued, after) → valued.pace = primary.pace
  | .operand _, _, _, _, h => by
    rw [Primary.mapM, Answering.run_map_eq_ok_iff] at h
    obtain ⟨value, -, rfl⟩ := h
    rfl
  | .enclosed _, _, _, _, h => by
    rw [Primary.mapM, Answering.run_map_eq_ok_iff] at h
    obtain ⟨inner, hi, rfl⟩ := h
    rw [Primary.pace, Primary.pace, Group.pace_of_mapM hi, Group.isAlone_of_mapM hi]
  | .call _ _, _, _, _, h => by
    rw [Primary.mapM, Answering.run_map_eq_ok_iff] at h
    obtain ⟨inner, hi, rfl⟩ := h
    rw [Primary.pace, Primary.pace, Group.isOperand_of_mapM hi]

end

/-- Literals have literals for their values. -/
def KeepsLiterals (f : α → Answering σ β) (literal : α → Prop) (other : β → Prop) : Prop :=
  ∀ {a : α} {value : β} {state after : σ}, literal a →
    (f a).run state = .ok (value, after) → other value

mutual

theorem Group.Argument.valued (hf : KeepsLiterals f literal other) :
    ∀ {group : Group α}, group.Argument literal → ∀ {state after : σ} {valued : Group β},
      (group.mapM f).run state = .ok (valued, after) → valued.Argument other
  | .mk _ _ .nil, ha, _, _, _, h => by
    obtain ⟨first', between, links', hp, hl, rfl⟩ := Group.run_mapM_eq_ok h
    cases hl
    exact Primary.Argument.valued hf ha hp
  | .mk _ _ (.link _ _ _), ha, _, _, _, _ => ha.elim

theorem Primary.Argument.valued (hf : KeepsLiterals f literal other) :
    ∀ {primary : Primary α} {signed : Bool}, primary.Argument literal signed →
      ∀ {state after : σ} {valued : Primary β},
      (primary.mapM f).run state = .ok (valued, after) → valued.Argument other signed
  | .operand _, _, ha, _, _, _, h => by
    rw [Primary.mapM, Answering.run_map_eq_ok_iff] at h
    obtain ⟨value, hv, rfl⟩ := h
    exact fun hs => hf (ha hs) hv
  | .enclosed _, _, ha, _, _, _, _ => ha.elim
  | .call _ _, _, ha, _, _, _, h => by
    rw [Primary.mapM, Answering.run_map_eq_ok_iff] at h
    obtain ⟨inner, hi, rfl⟩ := h
    exact ⟨ha.1, Group.Argument.valued hf ha.2 hi⟩

end

mutual

theorem Group.Direct.valued (hf : KeepsLiterals f literal other) :
    ∀ {group : Group α}, group.Direct literal → ∀ {state after : σ} {valued : Group β},
      (group.mapM f).run state = .ok (valued, after) → valued.Direct other
  | .mk _ _ _, hd, _, _, _, h => by
    obtain ⟨first', between, links', hp, hl, rfl⟩ := Group.run_mapM_eq_ok h
    exact ⟨Primary.Direct.valued hf hd.1 hp, Links.Direct.valued hf hd.2 hl⟩

theorem Links.Direct.valued (hf : KeepsLiterals f literal other) :
    ∀ {links : Links α}, links.Direct literal → ∀ {state after : σ} {valued : Links β},
      (links.mapM f).run state = .ok (valued, after) → valued.Direct other
  | .nil, _, _, _, _, h => by
    cases h
    trivial
  | .link _ _ _, hd, _, _, _, h => by
    obtain ⟨links', between, primary', hl, hp, rfl⟩ := Links.run_mapM_eq_ok h
    exact ⟨Links.Direct.valued hf hd.1 hl, Primary.Direct.valued hf hd.2 hp⟩

theorem Primary.Direct.valued (hf : KeepsLiterals f literal other) :
    ∀ {primary : Primary α}, primary.Direct literal → ∀ {state after : σ} {valued : Primary β},
      (primary.mapM f).run state = .ok (valued, after) → valued.Direct other
  | .operand _, _, _, _, _, h => by
    rw [Primary.mapM, Answering.run_map_eq_ok_iff] at h
    obtain ⟨value, -, rfl⟩ := h
    trivial
  | .enclosed _, hd, _, _, _, h => by
    rw [Primary.mapM, Answering.run_map_eq_ok_iff] at h
    obtain ⟨inner, hi, rfl⟩ := h
    exact Group.Direct.valued hf hd hi
  | .call _ _, hd, _, _, _, h => by
    rw [Primary.mapM, Answering.run_map_eq_ok_iff] at h
    obtain ⟨inner, hi, rfl⟩ := h
    exact Group.Argument.valued hf hd hi

end

end Valued

end Calculator
