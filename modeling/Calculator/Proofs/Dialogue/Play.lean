import Calculator.Dialogue
import Mathlib.Control.Lawful

/-!
# Playing a dialogue

What a dialogue comes to against a source, without its events: a result with the state
that the source is left in, or a failure. Playing respects sequencing, and a run has
the same outcome.
-/
namespace Calculator

/-- Computations that change the state of a source and may fail. -/
abbrev Answering (σ : Type) := StateT σ (Except Failure)

/-- An outcome that no answer has a part in. -/
def Answering.ofOutcome {σ α : Type} (outcome : Except Failure α) : Answering σ α :=
  fun state => outcome.map (·, state)

namespace Answering

variable {σ α β : Type}

theorem run_bind_eq_ok_iff {first : Answering σ α} {next : α → Answering σ β} {state : σ}
    {end' : β × σ} :
    (first >>= next).run state = .ok end' ↔
      ∃ value between, first.run state = .ok (value, between) ∧
        (next value).run between = .ok end' := by
  change (first state >>= fun p => next p.1 p.2) = _ ↔ _
  cases h : first state with
  | error failure =>
    constructor
    · intro hn
      cases hn
    · rintro ⟨value, between, hf, -⟩
      rw [StateT.run, h] at hf
      cases hf
  | ok p =>
    constructor
    · intro hn
      exact ⟨p.1, p.2, h, hn⟩
    · rintro ⟨value, between, hf, hn⟩
      rw [StateT.run, h] at hf
      cases hf
      exact hn

theorem run_map_eq_ok_iff {first : Answering σ α} {f : α → β} {state : σ} {end' : β × σ} :
    (f <$> first).run state = .ok end' ↔
      ∃ value, first.run state = .ok (value, end'.2) ∧ f value = end'.1 := by
  rw [map_eq_pure_bind, run_bind_eq_ok_iff]
  constructor
  · rintro ⟨value, between, hf, hn⟩
    cases hn
    exact ⟨value, hf, rfl⟩
  · rintro ⟨value, hf, hv⟩
    refine ⟨value, end'.2, hf, ?_⟩
    rw [hv]
    rfl

theorem run_ofOutcome_eq_ok_iff {outcome : Except Failure α} {state : σ} {end' : α × σ} :
    (ofOutcome outcome : Answering σ α).run state = .ok end' ↔
      outcome = .ok end'.1 ∧ end'.2 = state := by
  cases outcome with
  | error failure => simp [ofOutcome, StateT.run, Except.map]
  | ok value =>
    obtain ⟨result, after⟩ := end'
    simp [ofOutcome, StateT.run, Except.map, eq_comm]

theorem run_mapM_append {f : α → Answering σ β} {front rest : List α} {values more : List β}
    {state between after : σ} (h : (front.mapM f).run state = .ok (values, between))
    (hrest : (rest.mapM f).run between = .ok (more, after)) :
    ((front ++ rest).mapM f).run state = .ok (values ++ more, after) := by
  rw [List.mapM_append, run_bind_eq_ok_iff]
  refine ⟨values, between, h, ?_⟩
  rw [run_bind_eq_ok_iff]
  exact ⟨more, after, hrest, rfl⟩

theorem run_mapM_cons_iff {f : α → Answering σ β} {first : α} {rest : List α} {values : List β}
    {state after : σ} :
    ((first :: rest).mapM f).run state = .ok (values, after) ↔
      ∃ value more between, (f first).run state = .ok (value, between) ∧
        (rest.mapM f).run between = .ok (more, after) ∧ values = value :: more := by
  rw [List.mapM_cons, run_bind_eq_ok_iff]
  constructor
  · rintro ⟨value, between, hf, h⟩
    rw [run_bind_eq_ok_iff] at h
    obtain ⟨more, last, hr, he⟩ := h
    cases he
    exact ⟨value, more, between, hf, hr, rfl⟩
  · rintro ⟨value, more, between, hf, hr, rfl⟩
    refine ⟨value, between, hf, ?_⟩
    rw [run_bind_eq_ok_iff]
    exact ⟨more, after, hr, rfl⟩

theorem length_of_run_mapM {f : α → Answering σ β} {items : List α} :
    ∀ {values : List β} {state after : σ}, (items.mapM f).run state = .ok (values, after) →
      values.length = items.length := by
  induction items with
  | nil =>
    intro values state after h
    cases h
    rfl
  | cons item items ih =>
    intro values state after h
    obtain ⟨value, more, between, -, hrest, rfl⟩ := run_mapM_cons_iff.mp h
    rw [List.length_cons, List.length_cons, ih hrest]

end Answering

/-- The answer of a source, as a step that may fail. -/
def Source.ask {σ : Type} (source : Source σ) (name : Char) : Answering σ String :=
  fun state =>
    match source.answer name state with
    | (.ok text, after) => .ok (text, after)
    | (.error failure, _) => .error failure

namespace Dialogue

variable {σ α β : Type}

def play (source : Source σ) : Dialogue α → Answering σ α
  | done outcome => .ofOutcome outcome
  | note _ next => next.play source
  | ask name next => source.ask name >>= fun text => (next text).play source

@[simp] theorem play_done (source : Source σ) (outcome : Except Failure α) :
    (done outcome).play source = .ofOutcome outcome := rfl

@[simp] theorem play_note (source : Source σ) (record : Record) (next : Dialogue α) :
    (note record next).play source = next.play source := rfl

@[simp] theorem play_ask (source : Source σ) (name : Char) (next : String → Dialogue α) :
    (ask name next).play source = source.ask name >>= fun text => (next text).play source := rfl

theorem play_bind (source : Source σ) (dialogue : Dialogue α) (next : α → Dialogue β) :
    (dialogue >>= next).play source =
      dialogue.play source >>= fun value => (next value).play source := by
  induction dialogue with
  | done outcome => cases outcome <;> rfl
  | note record rest ih => exact ih
  | ask name rest ih =>
    rw [ask_bind, play_ask, play_ask, bind_assoc]
    exact congrArg _ (funext ih)

/-- A run against a source ends as the dialogue plays. -/
theorem run_outcome (source : Source σ) (dialogue : Dialogue α) (state : σ) :
    (dialogue.run source state).outcome = ((dialogue.play source).run state).map Prod.fst := by
  induction dialogue generalizing state with
  | done outcome => cases outcome <;> rfl
  | note record rest ih => exact ih state
  | ask name rest ih =>
    rw [play_ask, StateT.run_bind, run]
    simp only [Source.ask, StateT.run]
    rcases source.answer name state with ⟨answer, after⟩
    cases answer with
    | error failure => rfl
    | ok text => exact ih text after

/-- The outcome of a play, when only the result matters. -/
theorem run_outcome_eq_ok_iff {source : Source σ} {dialogue : Dialogue α} {state : σ} {value : α} :
    (dialogue.run source state).outcome = .ok value ↔
      ∃ after, (dialogue.play source).run state = .ok (value, after) := by
  rw [run_outcome]
  cases h : (dialogue.play source).run state with
  | error failure => simp [Except.map]
  | ok p =>
    obtain ⟨result, after⟩ := p
    simp [Except.map, eq_comm]

end Dialogue

end Calculator
