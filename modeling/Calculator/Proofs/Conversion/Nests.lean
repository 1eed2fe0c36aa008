import Calculator.Bindings
import Calculator.Proofs.Conversion.Replacement
import Calculator.Proofs.Conversion.WellFormed
import Calculator.Proofs.Yard.Nests

/-!
# Conversion of nested calls

Where every call has an operand or another call for its whole argument, the conversion
succeeds and the innermost function of each nest stands right behind its operand. The
outer functions of a nest are the only ones that may take an operand that is not theirs.
They do so exactly where more than parentheses around the nest alone follows it.
-/
namespace Calculator

variable {σ : Type} {source : Source σ}

def Operand.IsNumeral : Operand → Prop
  | .numeral _ => True
  | .letter _ => False

theorem keepsLiterals_read : KeepsLiterals source.read Operand.IsNumeral Value.IsLiteral := by
  intro operand value state after hn h
  cases operand with
  | numeral numeral =>
    cases h
    trivial
  | letter letter => exact hn.elim

/-- An expression whose calls are direct is converted in every spelling, for every source that
serves its variables. The core of each nest is unbroken, and every function stands right behind
its own argument exactly if the expression keeps in step. -/
theorem convert_direct_group (group : Group Operand) (hgroup : group.Direct Operand.IsNumeral)
    (source : Source σ) (state : σ) (hsource : source.Serves (letters group.marks) state)
    (expression : String) (hexpression : Spelling group.marks expression.toList) :
    ∃ valued after nodes, (group.mapM source.read).run state = .ok (valued, after) ∧
      ((convert expression).run source state).outcome = .ok nodes ∧
      Unbroken valued.cores nodes ∧
      (nodes = valued.applied.postorder ↔ group.pace ≠ .apart) ∧
      (group.pace ≠ .apart →
        ((calculate expression).run source state).outcome = .ok valued.applied.value) := by
  obtain ⟨marks, after, hm⟩ := exists_mapM hsource
  have hv := hm
  rw [Group.mapM_marks, Answering.run_map_eq_ok_iff] at hv
  obtain ⟨valued, hv, hmarks⟩ := hv
  obtain rfl : valued.marks = marks := hmarks
  obtain ⟨yard, nodes, ha, hf, hcores, hpostorder⟩ :=
    Group.finish_direct (Group.Direct.valued keepsLiterals_read hgroup hv)
  rw [Group.pace_of_mapM hv] at hpostorder
  have hconvert : ((convert expression).run source state).outcome = .ok nodes := by
    rw [Dialogue.run_outcome, play_convert_of_spelling hexpression group.through?_marks hm, ha]
    change ((yard.finish).map _).map _ = _
    rw [hf]
    rfl
  refine ⟨valued, after, nodes, hv, hconvert, hcores, hpostorder, fun hpace => ?_⟩
  rw [run_calculate_outcome, hconvert, hpostorder.mpr hpace]
  exact Tree.evaluate_postorder _

theorem convert_two_times_sine_of_cosine : ∃ group : Group Operand,
    group.Direct Operand.IsNumeral ∧ group.pace ≠ .apart ∧
    Spelling group.marks "2*sin(cos(-3))".toList ∧
      ∃ valued after nodes, (group.mapM Bindings.empty.source.read).run () = .ok (valued, after) ∧
        ((convert "2*sin(cos(-3))").run Bindings.empty.source ()).outcome = .ok nodes ∧
        nodes = valued.applied.postorder ∧
        ((calculate "2*sin(cos(-3))").run Bindings.empty.source ()).outcome =
          .ok valued.applied.value := by
  let group : Group Operand :=
    .mk false (.operand (.numeral .two)) (.link .nil .multiplication
      (.call .sine (.mk false (.call .cosine (.mk true (.operand (.numeral .three)) .nil)) .nil)))
  have hgroup : group.Direct Operand.IsNumeral :=
    ⟨trivial, trivial, rfl, fun _ => trivial⟩
  have hpace : group.pace ≠ .apart := by decide
  have hspelling : Spelling group.marks "2*sin(cos(-3))".toList :=
    .mark (.operand (.numeral .two)) (.mark (.operation .multiplication) (.mark (.call .sine)
      (.mark (.call .cosine) (.mark .sign (.mark (.operand (.numeral .three)) (.mark .closing
        (.mark .closing .nil)))))))
  obtain ⟨valued, after, nodes, hv, hc, -, hp, hvalue⟩ := convert_direct_group group hgroup
    Bindings.empty.source () (fun before name behind h => by cases before <;> cases h) _ hspelling
  exact ⟨group, hgroup, hpace, hspelling, valued, after, nodes, hv, hc, hp.mpr hpace, hvalue hpace⟩

/-- The sine waits behind the nest until the operand that follows has left, and takes it. -/
theorem convert_sine_of_cosine_plus_three : ∃ group : Group Operand,
    group.Direct Operand.IsNumeral ∧ Spelling group.marks "sin(cos(2))+3".toList ∧
      ∃ valued, (group.mapM Bindings.empty.source.read).run () = .ok (valued, ()) ∧
        valued.applied.postorder =
          [.number 2, .call .cosine, .call .sine, .number 3, .operation .addition] ∧
        ((convert "sin(cos(2))+3").run Bindings.empty.source ()).outcome =
          .ok [.number 2, .call .cosine, .number 3, .call .sine, .operation .addition] := by
  let group : Group Operand :=
    .mk false (.call .sine (.mk false (.call .cosine (.mk false (.operand (.numeral .two)) .nil))
      .nil)) (.link .nil .addition (.operand (.numeral .three)))
  have hspelling : Spelling group.marks "sin(cos(2))+3".toList :=
    .mark (.call .sine) (.mark (.call .cosine) (.mark (.operand (.numeral .two)) (.mark .closing
      (.mark .closing (.mark (.operation .addition) (.singleton (.operand (.numeral .three))))))))
  exact ⟨group, ⟨⟨rfl, nofun⟩, trivial, trivial⟩, hspelling, _, rfl, by decide +kernel,
    by decide +kernel⟩

end Calculator
