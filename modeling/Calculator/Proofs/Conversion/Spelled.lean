import Calculator.Calculation
import Calculator.Proofs.Grammar.Spelling

/-!
# The conversion of a spelling

If the source values all operands of a row of marks, the conversion of any text that
spells the row is the work of the yard on the valued marks. A calculation evaluates
what the conversion returns.
-/
namespace Calculator

variable {σ : Type} {source : Source σ}

/-- The value of an operand; only letters need an answer. -/
def Source.read (source : Source σ) : Operand → Answering σ Value
  | .numeral numeral => pure (.literal numeral.value)
  | .letter letter => .answered <$> source.value letter.name

theorem Mark.resolve_symbol (mark : Mark Operand) :
    mark.symbol.resolve source = mark.mapM source.read := by
  cases mark with
  | operand operand =>
    cases operand with
    | numeral numeral =>
      rw [Mark.mapM, Source.read, map_pure]
      rfl
    | letter letter =>
      rw [Mark.mapM, Source.read, Functor.map_map]
      rfl
  | call function => rfl
  | sign => rfl
  | operation operator => rfl
  | opening => rfl
  | closing => rfl

theorem mapM_resolve (marks : List (Mark Operand)) :
    (marks.map Mark.symbol).mapM (Symbol.resolve source) = marks.mapM (Mark.mapM source.read) := by
  induction marks with
  | nil => rfl
  | cons mark marks ih => rw [List.map_cons, List.mapM_cons, List.mapM_cons, ih, mark.resolve_symbol]

namespace ShuntingYard

theorem addAll_cons (yard : ShuntingYard) (mark : Mark Value) (marks : List (Mark Value)) :
    yard.addAll (mark :: marks) = (yard.add mark).bind (addAll · marks) := rfl

theorem addAll_append (yard : ShuntingYard) (marks more : List (Mark Value)) :
    yard.addAll (marks ++ more) = (yard.addAll marks).bind (addAll · more) :=
  List.foldlM_append

/-- A yard takes symbols that the source values as it adds their marks. -/
theorem take_of_mapM {symbols : List Symbol} :
    ∀ {yard : ShuntingYard} {state after : σ} {valued : List (Mark Value)},
      (symbols.mapM (Symbol.resolve source)).run state = .ok (valued, after) →
        (yard.take source symbols).run state = (yard.addAll valued).map (·, after) := by
  induction symbols with
  | nil =>
    intro yard state after valued h
    cases h
    rfl
  | cons symbol symbols ih =>
    intro yard state after valued h
    rw [List.mapM_cons, Answering.run_bind_eq_ok_iff] at h
    obtain ⟨mark, between, hm, h⟩ := h
    rw [Answering.run_bind_eq_ok_iff] at h
    obtain ⟨marks, last, hr, he⟩ := h
    cases he
    rw [take, StateT.run_bind, hm, addAll_cons]
    change (Answering.ofOutcome (yard.add mark) >>= fun next =>
      next.take source symbols).run between = _
    cases ha : yard.add mark with
    | error failure => rfl
    | ok next => exact ih hr

theorem mapM_of_take {symbols : List Symbol} :
    ∀ {yard last : ShuntingYard} {state after : σ},
      (yard.take source symbols).run state = .ok (last, after) →
        ∃ valued, (symbols.mapM (Symbol.resolve source)).run state = .ok (valued, after) ∧
          yard.addAll valued = .ok last := by
  induction symbols with
  | nil =>
    intro yard last state after h
    cases h
    exact ⟨[], rfl, rfl⟩
  | cons symbol symbols ih =>
    intro yard last state after h
    rw [take, Answering.run_bind_eq_ok_iff] at h
    obtain ⟨mark, between, hm, h⟩ := h
    rw [Answering.run_bind_eq_ok_iff] at h
    obtain ⟨next, later, ha, h⟩ := h
    rw [Answering.run_ofOutcome_eq_ok_iff] at ha
    obtain ⟨ha, rfl⟩ := ha
    obtain ⟨marks, hr, hl⟩ := ih h
    refine ⟨mark :: marks, ?_, ?_⟩
    · rw [List.mapM_cons, Answering.run_bind_eq_ok_iff]
      refine ⟨mark, _, hm, ?_⟩
      rw [Answering.run_bind_eq_ok_iff]
      exact ⟨marks, after, hr, rfl⟩
    · rw [addAll_cons, ha]
      exact hl

end ShuntingYard

/-- What is converted is read to its end, and the yard takes the marks of its symbols. -/
theorem exists_symbols_of_convert {expression : String} {nodes : List Node} {state after : σ}
    (h : ((convert expression).play source).run state = .ok (nodes, after)) :
    ∃ symbols marks yard,
      readRuns .leading 0 (runs expression.toList) = ⟨symbols, none⟩ ∧
      (symbols.mapM (Symbol.resolve source)).run state = .ok (marks, after) ∧
      ShuntingYard.empty.addAll marks = .ok yard ∧ yard.finish = .ok nodes := by
  rw [play_convert_eq] at h
  rcases hr : readRuns .leading 0 (runs expression.toList) with ⟨symbols, ending⟩
  rw [hr, Reading.playFrom, Answering.run_bind_eq_ok_iff] at h
  obtain ⟨yard, between, ht, hc⟩ := h
  rw [Answering.run_ofOutcome_eq_ok_iff] at hc
  obtain ⟨hc, rfl⟩ := hc
  cases ending with
  | some failure => cases hc
  | none =>
    obtain ⟨marks, hm, ha⟩ := ShuntingYard.mapM_of_take ht
    exact ⟨symbols, marks, yard, rfl, hm, ha, hc⟩

theorem run_playFrom {marks : List (Mark Operand)} {state after : σ} {valued : List (Mark Value)}
    (hv : (marks.mapM (Mark.mapM source.read)).run state = .ok (valued, after))
    (yard : ShuntingYard) :
    (Reading.playFrom source yard ⟨marks.map Mark.symbol, none⟩).run state =
      ((yard.addAll valued).bind ShuntingYard.finish).map (·, after) := by
  rw [← mapM_resolve] at hv
  rw [Reading.playFrom, StateT.run_bind, ShuntingYard.take_of_mapM hv]
  cases yard.addAll valued <;> rfl

/-- The conversion of a spelling, when the source values the operands. -/
theorem play_convert_of_spelling {text : String} {marks : List (Mark Operand)}
    (hs : Spelling marks text.toList) {last : Stage} (ht : Stage.leading.through? marks = some last)
    {state after : σ} {valued : List (Mark Value)}
    (hv : (marks.mapM (Mark.mapM source.read)).run state = .ok (valued, after)) :
    ((convert text).play source).run state =
      ((ShuntingYard.empty.addAll valued).bind ShuntingYard.finish).map (·, after) := by
  rw [play_convert_eq, hs.readRuns_eq ht 0 .leading nofun (by decide)]
  exact run_playFrom hv .empty

theorem play_calculate (source : Source σ) (expression : String) :
    (calculate expression).play source =
      (convert expression).play source >>= fun nodes => Answering.ofOutcome (evaluate nodes) := by
  rw [calculate, Dialogue.play_bind]
  congr 1
  funext nodes
  cases evaluate nodes <;> rfl

end Calculator
