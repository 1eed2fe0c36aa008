import Calculator.Proofs.Conversion.Answers
import Calculator.Proofs.Yard.Groups

/-!
# Conversion of well-formed expressions

Every text of a group converts into the postorder of the tree that the group means, and
its calculation returns the value of that tree.
-/
namespace Calculator

variable {σ : Type} {source : Source σ}

/-- The variables among some marks, in their order. -/
def letters : List (Mark Operand) → List Char
  | [] => []
  | .operand (.letter letter) :: marks => letter.name :: letters marks
  | _ :: marks => letters marks

/-- A source that serves the variables among some marks values the marks. -/
theorem exists_mapM {marks : List (Mark Operand)} :
    ∀ {state : σ}, source.Serves (letters marks) state →
      ∃ valued after, (marks.mapM (Mark.mapM source.read)).run state = .ok (valued, after) := by
  induction marks with
  | nil => exact fun {state} _ => ⟨[], state, rfl⟩
  | cons mark marks ih =>
    intro state h
    have hmark : ∃ first next, (mark.mapM source.read).run state = .ok (first, next) ∧
        source.Serves (letters marks) next := by
      cases mark with
      | operand operand =>
        cases operand with
        | numeral numeral => exact ⟨_, state, rfl, h⟩
        | letter letter =>
          obtain ⟨value, hv⟩ := Source.value_of_not_refusal h.head
          refine ⟨.operand (.answered value), _, ?_, h.tail⟩
          rw [Mark.mapM, Source.read, Functor.map_map, StateT.run_map, hv]
          rfl
      | call function => exact ⟨_, state, rfl, h⟩
      | sign => exact ⟨_, state, rfl, h⟩
      | operation operator => exact ⟨_, state, rfl, h⟩
      | opening => exact ⟨_, state, rfl, h⟩
      | closing => exact ⟨_, state, rfl, h⟩
    obtain ⟨first, next, hfirst, hnext⟩ := hmark
    obtain ⟨valued, after, hrest⟩ := ih hnext
    refine ⟨first :: valued, after, ?_⟩
    rw [List.mapM_cons, Answering.run_bind_eq_ok_iff]
    refine ⟨first, next, hfirst, ?_⟩
    rw [Answering.run_bind_eq_ok_iff]
    exact ⟨valued, after, hrest, rfl⟩

theorem Group.finish_addAll {group : Group Value} (h : group.Spaced) :
    (ShuntingYard.empty.addAll group.marks).bind ShuntingYard.finish = .ok group.tree.postorder := by
  obtain ⟨after, ha, hh⟩ := group.addAll_marks h [] [] [] (Nat.zero_le 1) (fun hn => absurd rfl hn)
    nofun
  rw [ShuntingYard.empty_eq_of, ha]
  exact hh.finish

theorem play_convert_group {group : Group Operand} (hgroup : group.Spaced) {state after : σ}
    {valued : Group Value} (hv : (group.mapM source.read).run state = .ok (valued, after))
    {expression : String} (hs : Spelling group.marks expression.toList) :
    ((convert expression).play source).run state = .ok (valued.tree.postorder, after) := by
  have hm : (group.marks.mapM (Mark.mapM source.read)).run state = .ok (valued.marks, after) := by
    rw [Group.mapM_marks, Answering.run_map_eq_ok_iff]
    exact ⟨valued, hv, rfl⟩
  rw [play_convert_of_spelling hs group.through?_marks hm,
    Group.finish_addAll (Group.Spaced.valued hgroup hv)]
  rfl

/-- A group whose calls are spaced has its tree, the only one that the order of binding admits, and
the value of that, in every spelling and for every source that serves its variables. -/
theorem convert_spelled_group (group : Group Operand) (hgroup : group.Spaced) (source : Source σ)
    (state : σ) (hsource : source.Serves (letters group.marks) state) (expression : String)
    (hexpression : Spelling group.marks expression.toList) :
    ∃ valued after tree, (group.mapM source.read).run state = .ok (valued, after) ∧
      valued.Means tree ∧ (∀ other, valued.Means other → other = tree) ∧
      ((convert expression).run source state).outcome = .ok tree.postorder ∧
      ((calculate expression).run source state).outcome = .ok tree.value := by
  obtain ⟨marks, after, hm⟩ := exists_mapM hsource
  rw [Group.mapM_marks, Answering.run_map_eq_ok_iff] at hm
  obtain ⟨valued, hv, -⟩ := hm
  have hplay := play_convert_group hgroup hv hexpression
  refine ⟨valued, after, valued.tree, hv, valued.means_tree, fun _ => Group.Means.eq_tree, ?_, ?_⟩
  · rw [Dialogue.run_outcome, hplay]
    rfl
  · rw [Dialogue.run_outcome, play_calculate, StateT.run_bind, hplay]
    change (Answering.ofOutcome (evaluate valued.tree.postorder) after).map Prod.fst = _
    rw [Tree.evaluate_postorder]
    rfl

theorem convert_sine_of_negated_letter : ∃ group : Group Operand, group.Spaced ∧
    Spelling group.marks "3+sin(-x+ 3)*2^2".toList ∧
      ∃ source : Source Unit, source.Serves (letters group.marks) () ∧
        ((convert "3+sin(-x+ 3)*2^2").run source ()).outcome =
          .ok [.number 3, .number 4, .negation, .call .sine, .number 3, .operation .addition,
            .negation, .number 2, .number 2, .operation .exponentiation,
            .operation .multiplication, .operation .addition] ∧
        ((calculate "3+sin(-x+ 3)*2^2").run source ()).outcome =
          .ok (3 + -((-4 : Float).sin + 3) * Float.pow 2 2) := by
  let argument : Group Operand :=
    .mk true (.operand (.letter .x)) (.link .nil .addition (.operand (.numeral .three)))
  let group : Group Operand :=
    .mk false (.operand (.numeral .three)) (.link (.link (.link .nil .addition
      (.call .sine argument)) .multiplication (.operand (.numeral .two))) .exponentiation
        (.operand (.numeral .two)))
  let source : Source Unit := ⟨fun _ state => (.ok "-4", state)⟩
  have hargument : argument.Spaced := ⟨trivial, trivial, trivial⟩
  have hg : group.Spaced :=
    ⟨trivial, ⟨⟨⟨trivial, trivial, hargument⟩, trivial⟩, trivial⟩⟩
  have hs : Spelling group.marks "3+sin(-x+ 3)*2^2".toList :=
    .mark (.operand (.numeral .three)) (.mark (.operation .addition) (.mark (.call .sine)
      (.mark .sign (.mark (.operand (.letter .x)) (.mark (.operation .addition)
        (.blank (by decide) (.mark (.operand (.numeral .three)) (.mark .closing
          (.mark (.operation .multiplication) (.mark (.operand (.numeral .two))
            (.mark (.operation .exponentiation) (.mark (.operand (.numeral .two)) .nil))))))))))))
  have hserves : source.Serves (letters group.marks) () := by
    intro before name behind _
    exact ⟨"-4", rfl, by decide⟩
  let valued (x two three : Float) : Group Value :=
    .mk false (.operand (.literal three)) (.link (.link (.link .nil .addition
      (.call .sine (.mk true (.operand (.answered x))
        (.link .nil .addition (.operand (.literal three)))))) .multiplication
          (.operand (.literal two))) .exponentiation (.operand (.literal two)))
  have hread : (Number.read? (Text.trim "-4".toList)).getD 0 = -4 := by decide +kernel
  have htwo : Numeral.two.value = 2 := by decide +kernel
  have hthree : Numeral.three.value = 3 := by decide +kernel
  have hvalued : (group.mapM source.read).run () = .ok (valued ((Number.read? (Text.trim
      "-4".toList)).getD 0) Numeral.two.value Numeral.three.value, ()) := rfl
  rw [hread, htwo, hthree] at hvalued
  obtain ⟨other, after, tree, hv, hmeans, -, hnodes, hvalue⟩ :=
    convert_spelled_group group hg source () hserves _ hs
  obtain rfl : other = valued (-4) 2 3 := congrArg Prod.fst (Except.ok.inj (hv.symm.trans hvalued))
  obtain rfl := hmeans.eq_tree
  have hpostorder : (valued (-4) 2 3).tree.postorder = [.number 3, .number 4, .negation,
      .call .sine, .number 3, .operation .addition, .negation, .number 2, .number 2,
      .operation .exponentiation, .operation .multiplication, .operation .addition] := by
    decide +kernel
  have hevaluate := Tree.evaluate_postorder (valued (-4) 2 3).tree
  rw [hpostorder] at hnodes hevaluate
  refine ⟨group, hg, hs, source, hserves, hnodes, hvalue.trans ?_⟩
  exact hevaluate.symm

end Calculator
