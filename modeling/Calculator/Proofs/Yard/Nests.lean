import Calculator.Proofs.Grammar.Nests
import Calculator.Proofs.Yard.Inventory

/-!
# Nests in the yard

A nest of calls leaves its operand and its innermost function behind, and the outer
functions wait. They are the next to leave only if nothing else does before the end. What a
mark lets leave never begins with a function, so any other operand and any operator or sign
that a parenthesis lets leave comes before them, and the nodes are apart from the postorder
for good.
-/
namespace Calculator

namespace ShuntingYard

variable {nodes : List Node} {stack base : List Waiting} {functions : List NamedFunction}

theorem addAll_singleton (yard : ShuntingYard) (mark : Mark Value) :
    yard.addAll [mark] = yard.add mark := by
  rw [addAll_cons]
  cases yard.add mark <;> rfl

/-! ## What leaves with a mark -/

theorem head?_accompanied (leaving : List Node) (functions : List NamedFunction) :
    (accompanied leaving functions).head? = leaving.head? := by
  cases leaving <;> rfl

theorem add_closing_empty : (of nodes (.parenthesis :: stack) functions).add .closing =
    .ok (of nodes stack functions) := rfl

theorem isCall_waiting {entries : List Waiting} {node : Node}
    (h : node ∈ entries.filterMap Waiting.node?) : node.isCall = false := by
  rw [← withoutCalls_waiting, withoutCalls, List.mem_filter] at h
  simpa using h.2

/-- The nodes that leave with a mark. No function is the first of them, and with an operand
there is one. -/
theorem exists_emitted {yard after : ShuntingYard} {mark : Mark Value}
    (h : yard.add mark = .ok after) :
    ∃ emitted, after.nodes = yard.nodes ++ emitted ∧
      (∀ node ∈ emitted.head?, node.isCall = false) ∧
      ∀ value, mark = .operand value → emitted ≠ [] := by
  rw [eq_of yard] at h
  cases mark with
  | operand value =>
    obtain ⟨number, rest, rfl, -, ha⟩ | ha :=
      add_operand_cases yard.nodes yard.stack yard.functions value
    · rw [ha] at h
      cases h
      refine ⟨[.number number, .negation] ++ released yard.functions, ?_, ?_, nofun⟩
      · rw [nodes_of, List.append_assoc]
      · rintro _ ⟨⟩
        rfl
    · rw [ha] at h
      cases h
      obtain ⟨number, rest, hv⟩ := value.exists_nodes_eq_cons
      refine ⟨value.nodes ++ released yard.functions, ?_, ?_, ?_⟩
      · rw [nodes_of, List.append_assoc]
      · rw [hv]
        rintro _ ⟨⟩
        rfl
      · rw [hv]
        nofun
  | operation operator =>
    rw [add_operation] at h
    cases h
    refine ⟨_, nodes_of, ?_, nofun⟩
    intro node hnode
    rw [← filterMap_node?_map] at hnode
    exact isCall_waiting (List.mem_of_mem_head? hnode)
  | closing =>
    by_cases hp : .parenthesis ∈ yard.stack
    · obtain ⟨above, below, hs, ha⟩ := exists_innermost hp
      rw [hs, add_closing ha] at h
      cases h
      refine ⟨_, nodes_of, ?_, nofun⟩
      intro node hnode
      rw [head?_accompanied] at hnode
      exact isCall_waiting (List.mem_of_mem_head? hnode)
    · rw [add_closing_unopened hp] at h
      cases h
  | call function =>
    rw [add_call] at h
    cases h
    exact ⟨[], by rw [nodes_of, List.append_nil], nofun, nofun⟩
  | sign =>
    rw [add_sign] at h
    cases h
    exact ⟨[], by rw [nodes_of, List.append_nil], nofun, nofun⟩
  | opening =>
    rw [add_opening] at h
    cases h
    exact ⟨[], by rw [nodes_of, List.append_nil], nofun, nofun⟩

theorem exists_emitted_all {marks : List (Mark Value)} :
    ∀ {yard after : ShuntingYard}, yard.addAll marks = .ok after →
      ∃ emitted, after.nodes = yard.nodes ++ emitted ∧
        (∀ node ∈ emitted.head?, node.isCall = false) ∧
        ((∃ value, .operand value ∈ marks) → emitted ≠ []) := by
  induction marks with
  | nil =>
    intro yard after h
    cases h
    exact ⟨[], (List.append_nil _).symm, nofun, fun ⟨_, hm⟩ => absurd hm List.not_mem_nil⟩
  | cons mark marks ih =>
    intro yard after h
    rw [addAll_cons] at h
    cases ha : yard.add mark with
    | error failure =>
      rw [ha] at h
      cases h
    | ok next =>
      rw [ha] at h
      obtain ⟨first, hfirst, hhead, hoperand⟩ := exists_emitted ha
      obtain ⟨rest, hrest, hrhead, hroperand⟩ := ih h
      refine ⟨first ++ rest, by rw [hrest, hfirst, List.append_assoc], ?_, ?_⟩
      · rw [List.head?_append]
        cases hf : first.head? with
        | none => exact hrhead
        | some node => exact fun other ho => hhead other (hf ▸ ho)
      · rintro ⟨value, hm⟩ hnil
        obtain ⟨hf, hr⟩ := List.append_eq_nil_iff.mp hnil
        rcases List.mem_cons.mp hm with he | hm
        · exact hoperand value he.symm hf
        · exact hroperand ⟨value, hm⟩ hr

end ShuntingYard

open ShuntingYard

/-! ## Every group is taken -/

section Taken

theorem exists_addAll_enclosed {opener : Mark Value} (ho : opener.opens = true)
    {marks : List (Mark Value)}
    (hmarks : ∀ yard : ShuntingYard, ∃ after, yard.addAll marks = .ok after ∧
      after.depth = yard.depth) (yard : ShuntingYard) :
    ∃ after, yard.addAll (opener :: marks ++ [.closing]) = .ok after ∧
      after.depth = yard.depth := by
  obtain ⟨opened, ha, hd⟩ := yard.exists_add_opens opener ho
  obtain ⟨inner, hi, hdi⟩ := hmarks opened
  obtain ⟨after, hc, hdc⟩ := exists_add_closing (show 0 < inner.depth by omega)
  refine ⟨after, ?_, by omega⟩
  rw [List.cons_append, addAll_cons_of_eq ha, addAll_append_of_eq hi, addAll_cons_of_eq hc]
  rfl

mutual

theorem Group.exists_addAll : ∀ (group : Group Value) (yard : ShuntingYard),
    ∃ after, yard.addAll group.marks = .ok after ∧ after.depth = yard.depth
  | .mk signed first links, yard => by
    have hsign : ∃ next, yard.addAll (signMarks signed) = .ok next ∧ next.depth = yard.depth := by
      cases signed with
      | false => exact ⟨yard, rfl, rfl⟩
      | true =>
        obtain ⟨next, ha, hd⟩ := yard.exists_add_plain .sign rfl nofun
        exact ⟨next, addAll_cons_of_eq ha [], hd⟩
    obtain ⟨next, hs, hd⟩ := hsign
    obtain ⟨between, hf, hdf⟩ := first.exists_addAll next
    obtain ⟨after, hl, hdl⟩ := links.exists_addAll between
    refine ⟨after, ?_, by omega⟩
    rw [Group.marks, List.append_assoc, addAll_append_of_eq hs, addAll_append_of_eq hf, hl]

theorem Links.exists_addAll : ∀ (links : Links Value) (yard : ShuntingYard),
    ∃ after, yard.addAll links.marks = .ok after ∧ after.depth = yard.depth
  | .nil, yard => ⟨yard, rfl, rfl⟩
  | .link links operator primary, yard => by
    obtain ⟨between, hl, hdl⟩ := links.exists_addAll yard
    obtain ⟨next, ha, hd⟩ := between.exists_add_plain (.operation operator) rfl nofun
    obtain ⟨after, hp, hdp⟩ := primary.exists_addAll next
    refine ⟨after, ?_, by omega⟩
    rw [Links.marks, addAll_append_of_eq hl, addAll_cons_of_eq ha, hp]

theorem Primary.exists_addAll : ∀ (primary : Primary Value) (yard : ShuntingYard),
    ∃ after, yard.addAll primary.marks = .ok after ∧ after.depth = yard.depth
  | .operand value, yard => by
    obtain ⟨after, ha, hd⟩ := yard.exists_add_plain (.operand value) rfl nofun
    exact ⟨after, addAll_cons_of_eq ha [], hd⟩
  | .enclosed group, yard => exists_addAll_enclosed rfl group.exists_addAll yard
  | .call function group, yard =>
    @exists_addAll_enclosed (.call function) rfl group.marks group.exists_addAll yard

end

end Taken

/-! ## One nest -/

/-- A nest leaves its core behind, and its outer functions wait above those before. -/
theorem Group.addAll_call : ∀ {group : Group Value}, group.Argument Value.IsLiteral →
    ∀ (function : NamedFunction) (nodes : List Node) (stack : List Waiting)
      (functions : List NamedFunction),
      (of nodes stack functions).addAll (Primary.call function group).marks =
        .ok (of (nodes ++ group.core function) stack (group.outer function ++ functions))
  | .mk false (.operand value) .nil, _, function, nodes, stack, functions => by
    have ha : (of nodes (.parenthesis :: stack) (function :: functions)).add (.operand value) =
        .ok (of (nodes ++ value.nodes ++ [.call function]) (.parenthesis :: stack) functions) :=
      add_value value nofun
    change (of _ _ _).addAll [.call function, .operand value, .closing] = _
    rw [addAll_cons_of_eq (add_call function), addAll_cons_of_eq ha,
      addAll_cons_of_eq add_closing_empty, List.append_assoc]
    rfl
  | .mk true (.operand (.literal number)) .nil, _, function, nodes, stack, functions => by
    have ha : (of nodes (.negation :: .parenthesis :: stack) (function :: functions)).add
        (.operand (.literal number)) =
          .ok (of (nodes ++ [.number number, .negation] ++ [.call function])
            (.parenthesis :: stack) functions) :=
      add_literal_negation number
    change (of _ _ _).addAll [.call function, .sign, .operand (.literal number), .closing] = _
    rw [addAll_cons_of_eq (add_call function), addAll_cons_of_eq add_sign, addAll_cons_of_eq ha,
      addAll_cons_of_eq add_closing_empty, List.append_assoc]
    rfl
  | .mk true (.operand (.answered _)) .nil, h, _, _, _, _ => (h rfl).elim
  | .mk _ (.call inner group) .nil, h, function, nodes, stack, functions => by
    obtain ⟨rfl, hgroup⟩ := h
    have hinner := Group.addAll_call hgroup inner nodes (.parenthesis :: stack)
      (function :: functions)
    have hmarks : (Primary.call function (.mk false (.call inner group) .nil)).marks =
        .call function :: ((Primary.call inner group).marks ++ [.closing]) := by
      simp [Primary.marks, Group.marks, Links.marks, signMarks]
    rw [hmarks, addAll_cons_of_eq (add_call function), addAll_append_of_eq hinner,
      addAll_cons_of_eq add_closing_empty, Group.core, Group.outer, List.append_assoc]
    rfl
  | .mk _ (.enclosed _) .nil, h, _, _, _, _ => h.elim
  | .mk _ _ (.link _ _ _), h, _, _, _, _ => h.elim

/-! ## Nodes that are apart -/

/-- After a common part the lists go on differently. -/
def Diverge (nodes others : List Node) : Prop :=
  ∃ common left right rest behind, nodes = common ++ left :: rest ∧
    others = common ++ right :: behind ∧ left ≠ right

theorem Diverge.append {nodes others : List Node} (h : Diverge nodes others)
    (more rest : List Node) : Diverge (nodes ++ more) (others ++ rest) := by
  obtain ⟨common, left, right, behind, last, rfl, rfl, hne⟩ := h
  refine ⟨common, left, right, behind ++ more, last ++ rest, ?_, ?_, hne⟩
  · rw [List.append_assoc, List.cons_append]
  · rw [List.append_assoc, List.cons_append]

theorem Diverge.ne {nodes others : List Node} (h : Diverge nodes others) : nodes ≠ others := by
  obtain ⟨common, left, right, rest, behind, rfl, rfl, hne⟩ := h
  intro he
  exact hne (List.cons.inj (List.append_cancel_left he)).1

/-- How a yard stands to the nodes that are settled, if these nodes had left before. -/
inductive Paced (nodes : List Node) (stack : List Waiting) (settled : List Node) :
    Pace → ShuntingYard → Prop
  | inStep : Paced nodes stack settled .inStep (of (nodes ++ settled) stack [])
  | behind {front : List Node} {functions : List NamedFunction} (hne : functions ≠ [])
      (hs : front ++ functions.map Node.call = settled) :
      Paced nodes stack settled .behind (of (nodes ++ front) stack functions)
  | apart {yard : ShuntingYard} (h : Diverge yard.nodes (nodes ++ settled)) :
      Paced nodes stack settled .apart yard

namespace Paced

variable {nodes settled : List Node} {stack base : List Waiting} {pace : Pace}
  {yard after : ShuntingYard}

theorem shift {more : List Node} (h : Paced (nodes ++ more) stack settled pace yard) :
    Paced nodes stack (more ++ settled) pace yard := by
  cases h with
  | inStep =>
    rw [List.append_assoc]
    exact .inStep
  | behind hne hs =>
    rw [List.append_assoc]
    exact .behind hne (by rw [← hs, List.append_assoc])
  | apart h =>
    rw [List.append_assoc] at h
    exact .apart h

/-- Nodes that begin with no function are out of place where a function has to leave. -/
theorem diverge (h : Paced nodes stack settled pace yard) (hp : pace ≠ .inStep)
    {emitted : List Node} (hafter : after.nodes = yard.nodes ++ emitted)
    (hhead : ∀ node ∈ emitted.head?, node.isCall = false) (hne : pace = .behind → emitted ≠ [])
    (more : List Node) : Diverge after.nodes (nodes ++ (settled ++ more)) := by
  cases h with
  | inStep => exact absurd rfl hp
  | @behind front functions hfunctions hs =>
    obtain ⟨first, rest, rfl⟩ := List.exists_cons_of_ne_nil (hne rfl)
    obtain ⟨function, others, rfl⟩ := List.exists_cons_of_ne_nil hfunctions
    refine ⟨nodes ++ front, first, .call function, rest, others.map Node.call ++ more, ?_, ?_, ?_⟩
    · rw [hafter, nodes_of]
    · rw [← hs]
      simp only [List.map_cons, List.append_assoc, List.cons_append]
    · rintro rfl
      cases hhead _ rfl
  | apart h =>
    rw [hafter, ← List.append_assoc]
    exact h.append emitted more

end Paced

/-! ## Chains, groups and primaries -/

section Link

variable {nodes : List Node} {base : List Waiting} {chain : Chained} {pace : Pace}
  {yard : ShuntingYard} {primary : Primary Value}

/-- One link more, behind a chain that may already be out of step. -/
theorem Paced.link (ho : chain.Ordered) (hb : ∀ top, base.head? ≠ some (.operation top))
    (h : Paced nodes (chain.edge.map .operation ++ base) chain.settled pace yard)
    (operator : Operator)
    (hp : ∀ nodes stack, ∃ after,
      (of nodes (.operation operator :: stack) []).addAll primary.marks = .ok after ∧
        Paced nodes (.operation operator :: stack) primary.applied.postorder primary.pace after) :
    ∃ after, yard.addAll (.operation operator :: primary.marks) = .ok after ∧
      Paced nodes ((chain.insert operator primary.applied).edge.map .operation ++ base)
        (chain.insert operator primary.applied).settled (pace.followedBy primary.pace) after := by
  rw [Chained.edge_insert ho, Chained.settled_insert ho, List.append_assoc]
  by_cases hpace : pace = .inStep
  · subst hpace
    cases h
    obtain ⟨after, ha, hafter⟩ := hp
      (nodes ++ chain.settled ++ (chain.leaving operator).map Node.operation)
      ((chain.staying operator).map .operation ++ base)
    refine ⟨after, ?_, hafter.shift.shift⟩
    exact (addAll_cons_of_eq (add_operation_between hb chain operator) _).trans ha
  · -- The operand of the primary leaves, and none of the waiting functions before it.
    obtain ⟨next, hnext, -⟩ := yard.exists_add_plain (.operation operator) rfl nofun
    obtain ⟨after, ha, -⟩ := primary.exists_addAll next
    rw [← addAll_cons_of_eq hnext] at ha
    obtain ⟨emitted, hemitted, hhead, hoperand⟩ := exists_emitted_all ha
    obtain ⟨value, hvalue⟩ := primary.exists_operand
    have hne : emitted ≠ [] := hoperand ⟨value, List.mem_cons_of_mem _ hvalue⟩
    have hlost : pace.followedBy primary.pace = .apart := by
      cases pace with
      | inStep => exact absurd rfl hpace
      | behind => rfl
      | apart => rfl
    rw [hlost]
    exact ⟨after, ha, .apart (h.diverge hpace hemitted hhead (fun _ => hne) _)⟩

/-- A closing parenthesis lets the entries above its partner leave, and before the first of them no
function. -/
theorem Paced.enclosed {settled : List Node} {entries : List Waiting} {alone : Bool}
    (hentries : .parenthesis ∉ entries)
    (halone : pace = .behind → (entries = [] ↔ alone = true))
    (h : Paced nodes (entries ++ .parenthesis :: base) settled pace yard) {after : ShuntingYard}
    (hafter : yard.add .closing = .ok after) :
    Paced nodes base (settled ++ entries.filterMap Waiting.node?) (pace.closed alone) after := by
  cases h with
  | inStep =>
    rw [add_closing hentries, accompanied_nil, List.drop_nil, List.append_assoc] at hafter
    cases hafter
    exact .inStep
  | @behind front functions hne hs =>
    have hpaced : Paced nodes (entries ++ .parenthesis :: base) settled .behind
      (of (nodes ++ front) (entries ++ .parenthesis :: base) functions) := .behind hne hs
    rw [add_closing hentries] at hafter
    cases hafter
    cases alone with
    | true =>
      obtain rfl := (halone rfl).mpr rfl
      rw [List.filterMap_nil, accompanied_nil_left, List.append_nil, List.append_nil]
      exact .behind hne hs
    | false =>
      have hleaving : entries.filterMap Waiting.node? ≠ [] := by
        intro hnil
        have hlength := length_filterMap_node? hentries
        rw [hnil] at hlength
        cases (halone rfl).mp (List.eq_nil_of_length_eq_zero hlength.symm)
      have hnodes : (of (nodes ++ front ++ accompanied (entries.filterMap Waiting.node?) functions)
          base (functions.drop entries.length)).nodes =
            (of (nodes ++ front) (entries ++ .parenthesis :: base) functions).nodes ++
              accompanied (entries.filterMap Waiting.node?) functions := by
        rw [nodes_of, nodes_of]
      refine .apart (hpaced.diverge nofun hnodes ?_ ?_ _)
      · intro node hnode
        rw [head?_accompanied] at hnode
        exact isCall_waiting (List.mem_of_mem_head? hnode)
      · intro _ hnil
        have hhead := head?_accompanied (entries.filterMap Waiting.node?) functions
        rw [hnil] at hhead
        exact hleaving (List.head?_eq_none_iff.mp hhead.symm)
  | apart h =>
    have hpaced : Paced nodes (entries ++ .parenthesis :: base) settled .apart yard := .apart h
    obtain ⟨emitted, hemitted, hhead, -⟩ := exists_emitted hafter
    exact .apart (hpaced.diverge nofun hemitted hhead nofun _)

end Link

section Groups

theorem edge_grow_eq_nil_iff (start : Tree) (links : Links Value) :
    ((Chained.leaf start).grow links.applied).edge = [] ↔ links = .nil := by
  have hstart : (Chained.leaf start).Ordered := trivial
  cases links with
  | nil => exact ⟨fun _ => rfl, fun _ => rfl⟩
  | link links operator primary =>
    rw [Links.applied, Chained.grow_append]
    change (Chained.insert _ _ _).edge = [] ↔ _
    rw [Chained.edge_insert (hstart.grow links.applied)]
    exact ⟨nofun, nofun⟩

/-- A chain behind the entry of its sign, if it has one. -/
theorem Links.paced_behind {links : Links Value} {nodes : List Node} {base signs : List Waiting}
    {start : Tree} {pace : Pace} {yard : ShuntingYard}
    (hsigns : signs = [] ∨ signs = [.negation])
    (hbase : ∀ top ∈ base.head?, top = .parenthesis)
    (hlinks : ∀ {chain : Chained}, (∀ top, (signs ++ base).head? ≠ some (.operation top)) →
      chain.Ordered → Paced nodes (chain.edge.map .operation ++ (signs ++ base)) chain.settled pace
        yard →
        ∃ after, yard.addAll links.marks = .ok after ∧
          Paced nodes ((chain.grow links.applied).edge.map .operation ++ (signs ++ base))
            (chain.grow links.applied).settled (links.pace pace) after)
    (h : Paced nodes (signs ++ base) start.postorder pace yard) :
    ∃ after settled entries, yard.addAll links.marks = .ok after ∧
      Paced nodes (entries ++ base) settled (links.pace pace) after ∧ .parenthesis ∉ entries ∧
      settled ++ entries.filterMap Waiting.node? =
        ((Chained.leaf start).grow links.applied).tree.postorder ++
          signs.filterMap Waiting.node? ∧
      (entries = [] ↔ links = .nil ∧ signs = []) := by
  have hb : ∀ top, (signs ++ base).head? ≠ some (.operation top) := by
    intro top ht
    rcases hsigns with rfl | rfl
    · cases hbase _ ht
    · cases ht
  obtain ⟨after, ha, hafter⟩ := @hlinks (.leaf start) hb trivial h
  let chain := (Chained.leaf start).grow links.applied
  refine ⟨after, chain.settled, chain.edge.map .operation ++ signs, ha, ?_, ?_, ?_, ?_⟩
  · rw [List.append_assoc]
    exact hafter
  · rw [List.mem_append]
    rintro (hm | hm)
    · exact parenthesis_not_mem_map _ hm
    · rcases hsigns with rfl | rfl
      · cases hm
      · simp at hm
  · rw [List.filterMap_append, filterMap_node?_map, ← List.append_assoc, ← chain.postorder_tree]
  · rw [List.append_eq_nil_iff, List.map_eq_nil_iff, edge_grow_eq_nil_iff]

theorem Group.isAlone_iff {signed : Bool} {first : Primary Value} {links : Links Value} :
    (Group.mk signed first links).isAlone = true ↔ links = .nil ∧ signed = false := by
  cases signed <;> cases links <;> simp [Group.isAlone]

/-- The first operand of a group. A sign before it waits, unless it belongs to a literal. -/
theorem Primary.paced_behind_sign {first : Primary Value} {nodes : List Node} {base : List Waiting}
    (hbase : ∀ top ∈ base.head?, top = .parenthesis)
    (hfirst : ∀ stack,
      (∀ number, first = .operand (.literal number) → stack.head? ≠ some .negation) →
        ∃ after, (of nodes stack []).addAll first.marks = .ok after ∧
          Paced nodes stack first.applied.postorder first.pace after) (signed : Bool) :
    ∃ yard signs start, (signs = [] ∨ signs = [.negation]) ∧
      (of nodes base []).addAll (signMarks signed ++ first.marks) = .ok yard ∧
      Paced nodes (signs ++ base) (Tree.postorder start) first.pace yard ∧
      (∀ links, (Group.mk signed first links).applied.postorder =
        ((Chained.leaf start).grow links.applied).tree.postorder ++
          signs.filterMap Waiting.node?) ∧
      (first.pace = .behind → (signs = [] ↔ signed = false)) := by
  have hn : base.head? ≠ some .negation := by
    intro ht
    cases hbase _ ht
  cases signed with
  | false =>
    obtain ⟨yard, ha, hyard⟩ := hfirst base fun _ _ => hn
    exact ⟨yard, [], first.applied, .inl rfl, ha, hyard, fun _ => (List.append_nil _).symm,
      fun _ => ⟨fun _ => rfl, fun _ => rfl⟩⟩
  | true =>
    by_cases hl : ∃ number, first = .operand (.literal number)
    · obtain ⟨number, rfl⟩ := hl
      have ha : (of nodes (.negation :: base) []).add (.operand (.literal number)) =
          .ok (of (nodes ++ [.number number, .negation] ++ []) base []) :=
        add_literal_negation number
      rw [List.append_nil] at ha
      refine ⟨_, [], .signed number, .inl rfl, ?_, .inStep, fun _ => (List.append_nil _).symm,
        nofun⟩
      exact (addAll_cons_of_eq add_sign _).trans (addAll_cons_of_eq ha [])
    · obtain ⟨yard, ha, hyard⟩ := hfirst (.negation :: base) fun number he => absurd ⟨number, he⟩ hl
      refine ⟨yard, [.negation], first.applied, .inr rfl, (addAll_cons_of_eq add_sign _).trans ha,
        hyard, fun links => ?_, fun _ => ⟨nofun, nofun⟩⟩
      have happlied : (Group.mk true first links).applied =
          .negation ((Chained.leaf first.applied).grow links.applied).tree := by
        cases first with
        | operand value =>
          cases value with
          | literal number => exact absurd ⟨number, rfl⟩ hl
          | answered number => rfl
        | enclosed group => rfl
        | call function group => rfl
      rw [happlied]
      rfl

mutual

theorem Group.paced : ∀ group : Group Value, group.Direct Value.IsLiteral →
    ∀ (nodes : List Node) (base : List Waiting), (∀ top ∈ base.head?, top = .parenthesis) →
      ∃ after settled entries, (of nodes base []).addAll group.marks = .ok after ∧
        Paced nodes (entries ++ base) settled group.pace after ∧ .parenthesis ∉ entries ∧
        settled ++ entries.filterMap Waiting.node? = group.applied.postorder ∧
        (group.pace = .behind → (entries = [] ↔ group.isAlone = true))
  | .mk signed first links, hd, nodes, base, hbase => by
    obtain ⟨yard, signs, start, hsigns, hf, hyard, happlied, halone⟩ :=
      Primary.paced_behind_sign hbase (first.paced hd.1 nodes) signed
    obtain ⟨after, settled, entries, ha, hpaced, hp, hs, he⟩ :=
      Links.paced_behind hsigns hbase (links.paced hd.2) hyard
    refine ⟨after, settled, entries, ?_, hpaced, hp, hs.trans (happlied links).symm, ?_⟩
    · rw [Group.marks, addAll_append_of_eq hf, ha]
    · intro hpace
      rw [he, Group.isAlone_iff]
      cases links with
      | nil => rw [halone hpace]
      | link links operator primary => exact ⟨fun h => (nomatch h.1), fun h => (nomatch h.1)⟩

theorem Links.paced : ∀ links : Links Value, links.Direct Value.IsLiteral →
    ∀ {nodes : List Node} {base : List Waiting} {chain : Chained} {pace : Pace}
      {yard : ShuntingYard}, (∀ top, base.head? ≠ some (.operation top)) → chain.Ordered →
      Paced nodes (chain.edge.map .operation ++ base) chain.settled pace yard →
        ∃ after, yard.addAll links.marks = .ok after ∧
          Paced nodes ((chain.grow links.applied).edge.map .operation ++ base)
            (chain.grow links.applied).settled (links.pace pace) after
  | .nil, _, _, _, _, _, yard, _, _, h => ⟨yard, rfl, h⟩
  | .link links operator primary, hd, nodes, base, chain, pace, yard, hb, ho, h => by
    obtain ⟨between, hl, hbetween⟩ := links.paced hd.1 hb ho h
    obtain ⟨after, hp, hafter⟩ := hbetween.link (ho.grow links.applied) hb operator
      fun nodes stack => primary.paced hd.2 nodes (.operation operator :: stack) nofun
    refine ⟨after, ?_, ?_⟩
    · rw [Links.marks, addAll_append_of_eq hl, hp]
    · rw [Links.applied, Chained.grow_append]
      exact hafter

theorem Primary.paced : ∀ primary : Primary Value, primary.Direct Value.IsLiteral →
    ∀ (nodes : List Node) (stack : List Waiting),
      (∀ number, primary = .operand (.literal number) → stack.head? ≠ some .negation) →
        ∃ after, (of nodes stack []).addAll primary.marks = .ok after ∧
          Paced nodes stack primary.applied.postorder primary.pace after
  | .operand value, _, nodes, stack, hn => by
    have ha : (of nodes stack []).add (.operand value) =
        .ok (of (nodes ++ value.nodes ++ []) stack []) :=
      add_value value fun number hv => hn number (congrArg _ hv)
    rw [List.append_nil] at ha
    exact ⟨_, addAll_cons_of_eq ha [], .inStep⟩
  | .enclosed group, hd, nodes, stack, _ => by
    obtain ⟨inner, settled, entries, hg, hpaced, hp, hs, he⟩ := group.paced hd nodes
      (.parenthesis :: stack) fun top ht => (Option.some.inj ht).symm
    obtain ⟨after, ha, -⟩ := (Primary.enclosed group).exists_addAll (of nodes stack [])
    have hclosing : inner.addAll [.closing] = .ok after := by
      rw [← ha, Primary.marks, List.cons_append, addAll_cons_of_eq add_opening,
        addAll_append_of_eq hg]
    rw [addAll_singleton] at hclosing
    refine ⟨after, ha, ?_⟩
    have hafter := hpaced.enclosed hp he hclosing
    rw [hs] at hafter
    exact hafter
  | .call function group, hd, nodes, stack, _ => by
    refine ⟨_, Group.addAll_call hd function nodes stack [], ?_⟩
    have hcore := Group.core_append_outer function hd
    have houter := Group.outer_eq_nil_iff hd function
    rw [List.append_nil, Primary.pace]
    split
    · rename_i ho
      rw [houter.mpr ho, List.map_nil, List.append_nil] at hcore
      rw [houter.mpr ho, hcore]
      exact .inStep
    · rename_i ho
      exact .behind (fun hnil => ho (houter.mp hnil)) hcore

end

end Groups

/-! ## The cores of the nests -/

/-- From one yard to another these pieces have left, each of them unbroken. -/
def Leave (pieces : List (List Node)) (yard after : ShuntingYard) : Prop :=
  ∃ emitted, after.nodes = yard.nodes ++ emitted ∧ Unbroken pieces emitted

theorem Leave.append {pieces more : List (List Node)} {yard between after : ShuntingYard}
    (h : Leave pieces yard between) (hmore : Leave more between after) :
    Leave (pieces ++ more) yard after := by
  obtain ⟨emitted, he, hu⟩ := h
  obtain ⟨rest, hr, hm⟩ := hmore
  exact ⟨emitted ++ rest, by rw [hr, he, List.append_assoc], hu.append hm⟩

theorem leave_nil {marks : List (Mark Value)} {yard after : ShuntingYard}
    (h : yard.addAll marks = .ok after) : Leave [] yard after := by
  obtain ⟨emitted, he, -⟩ := exists_emitted_all h
  exact ⟨emitted, he, .nil emitted⟩

theorem exists_between_of_addAll {marks more : List (Mark Value)} {yard after : ShuntingYard}
    (h : yard.addAll (marks ++ more) = .ok after) :
    ∃ between, yard.addAll marks = .ok between ∧ between.addAll more = .ok after := by
  rw [addAll_append] at h
  cases hb : yard.addAll marks with
  | error failure =>
    rw [hb] at h
    cases h
  | ok between =>
    rw [hb] at h
    exact ⟨between, rfl, h⟩

mutual

theorem Group.leave_cores : ∀ {group : Group Value}, group.Direct Value.IsLiteral →
    ∀ {yard after : ShuntingYard}, yard.addAll group.marks = .ok after →
      Leave group.cores yard after
  | .mk _ _ _, hd, _, _, h => by
    rw [Group.marks, List.append_assoc] at h
    obtain ⟨behindSign, hs, h⟩ := exists_between_of_addAll h
    obtain ⟨behindFirst, hf, hl⟩ := exists_between_of_addAll h
    exact (leave_nil hs).append
      ((Primary.leave_cores hd.1 hf).append (Links.leave_cores hd.2 hl))

theorem Links.leave_cores : ∀ {links : Links Value}, links.Direct Value.IsLiteral →
    ∀ {yard after : ShuntingYard}, yard.addAll links.marks = .ok after →
      Leave links.cores yard after
  | .nil, _, _, _, h => leave_nil h
  | .link _ operator primary, hd, _, _, h => by
    obtain ⟨behindLinks, hl, h⟩ := exists_between_of_addAll h
    rw [← List.singleton_append] at h
    obtain ⟨behindOperator, ho, hp⟩ := exists_between_of_addAll h
    exact (Links.leave_cores hd.1 hl).append
      ((leave_nil ho).append (Primary.leave_cores hd.2 hp))

theorem Primary.leave_cores : ∀ {primary : Primary Value}, primary.Direct Value.IsLiteral →
    ∀ {yard after : ShuntingYard}, yard.addAll primary.marks = .ok after →
      Leave primary.cores yard after
  | .operand _, _, _, _, h => leave_nil h
  | .enclosed group, hd, _, _, h => by
    rw [Primary.marks] at h
    obtain ⟨behindGroup, hg, hc⟩ := exists_between_of_addAll h
    rw [← List.singleton_append] at hg
    obtain ⟨opened, ho, hg⟩ := exists_between_of_addAll hg
    have hinner := ((leave_nil ho).append (Group.leave_cores hd hg)).append (leave_nil hc)
    rwa [List.append_nil] at hinner
  | .call function group, hd, yard, after, h => by
    rw [eq_of yard, Group.addAll_call hd] at h
    cases h
    refine ⟨group.core function, nodes_of, ?_⟩
    have hu := Unbroken.cons [] (group.core function) (.nil [])
    rwa [List.append_nil] at hu

end

/-- The yard takes every group whose calls are direct. The cores of its nests leave unbroken, and
the nodes are the postorder of its tree unless the group is out of step. -/
theorem Group.finish_direct {group : Group Value} (hd : group.Direct Value.IsLiteral) :
    ∃ yard nodes, empty.addAll group.marks = .ok yard ∧ yard.finish = .ok nodes ∧
      Unbroken group.cores nodes ∧
      (nodes = group.applied.postorder ↔ group.pace ≠ .apart) := by
  obtain ⟨yard, settled, entries, ha, hpaced, hp, hs, -⟩ := group.paced hd [] [] nofun
  obtain ⟨other, hother, hdepth⟩ := group.exists_addAll empty
  obtain rfl : other = yard := Except.ok.inj (hother.symm.trans ha)
  obtain ⟨nodes, hf⟩ := exists_finish hdepth
  have hnodes := finish_eq_holdings hf
  obtain ⟨emitted, hemitted, hcores⟩ := Group.leave_cores hd ha
  refine ⟨other, nodes, ha, hf, ?_, ?_⟩
  · have hall := hcores.append
      (.nil (other.functions.map Node.call ++ other.stack.filterMap Waiting.node?))
    rw [hnodes, holdings, hemitted, List.append_assoc, List.append_assoc]
    rwa [List.append_nil] at hall
  · rw [hnodes, ← hs]
    generalize group.pace = pace at hpaced ⊢
    cases hpaced with
    | inStep =>
      refine ⟨fun _ => by decide, fun _ => ?_⟩
      rw [holdings_of, List.map_nil, List.append_nil, List.append_nil]
      rfl
    | behind hne hfront =>
      refine ⟨fun _ => by decide, fun _ => ?_⟩
      rw [holdings_of, List.append_nil, ← hfront]
      rfl
    | apart h =>
      have hd := h.append (other.functions.map Node.call ++ other.stack.filterMap Waiting.node?)
        (entries.filterMap Waiting.node?)
      rw [← List.append_assoc] at hd
      exact ⟨fun he => absurd he hd.ne, fun hp => absurd rfl hp⟩

end Calculator
