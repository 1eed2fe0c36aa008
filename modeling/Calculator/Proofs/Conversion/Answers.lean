import Calculator.Proofs.Conversion.Reading
import Calculator.Proofs.Dialogue.Alike

/-!
# Questions and answers

A source that is asked for variables in an order, and why a variable can be left without
a value: the source fails, or its answer is no numeral.
-/
namespace Calculator

open Text

namespace Source

variable {σ : Type}

/-- Why a variable has no value: the failure of the source, or an answer that is no numeral. -/
def refusal? (source : Source σ) (name : Char) (state : σ) : Option Failure :=
  match (source.answer name state).1 with
  | .error failure => some failure
  | .ok answer =>
    if (Number.read? (trim answer.toList)).isSome then none
    else some (.invalidVariableInput name (trim answer.toList))

/-- The answer of the source decides the value and the state behind the question. -/
theorem run_value (source : Source σ) (name : Char) (state : σ) :
    (source.value name).run state =
      match source.answer name state with
      | (.ok answer, next) => (Conversion.readAnswer name answer).map (·, next)
      | (.error failure, _) => .error failure := by
  rw [value, Conversion.askValue, Dialogue.play_ask, StateT.run_bind]
  simp only [ask, StateT.run]
  rcases source.answer name state with ⟨answer, next⟩
  cases answer with
  | error failure => rfl
  | ok answer =>
    cases hv : Conversion.readAnswer name answer with
    | error failure =>
      simp only [hv, bind, Except.bind]
      rfl
    | ok value =>
      simp only [hv, bind, Except.bind]
      rfl

theorem state_of_value {source : Source σ} {name : Char} {state next : σ} {value : Float}
    (h : (source.value name).run state = .ok (value, next)) : next = source.after [name] state := by
  rw [run_value] at h
  change next = (source.answer name state).2
  rcases ha : source.answer name state with ⟨answer, last⟩
  rw [ha] at h
  cases answer with
  | error failure => cases h
  | ok answer =>
    dsimp only at h
    cases hv : Conversion.readAnswer name answer with
    | error failure =>
      rw [hv] at h
      cases h
    | ok value =>
      rw [hv] at h
      cases h
      rfl

theorem value_of_refusal {source : Source σ} {name : Char} {state : σ} {failure : Failure}
    (h : source.refusal? name state = some failure) :
    (source.value name).run state = .error failure := by
  rw [refusal?] at h
  rw [run_value]
  rcases ha : source.answer name state with ⟨answer, next⟩
  rw [ha] at h
  cases answer with
  | error cause =>
    cases h
    rfl
  | ok answer =>
    dsimp only at h ⊢
    split at h
    · cases h
    · rename_i hr
      have hn : Number.read? (trim answer.toList) = none := by simpa using hr
      cases h
      simp only [Conversion.readAnswer, hn]
      rfl

theorem value_of_not_refusal {source : Source σ} {name : Char} {state : σ}
    (h : source.refusal? name state = none) :
    ∃ value, (source.value name).run state = .ok (value, source.after [name] state) := by
  rw [refusal?] at h
  rw [run_value]
  change ∃ value, _ = Except.ok (value, (source.answer name state).2)
  rcases ha : source.answer name state with ⟨answer, next⟩
  rw [ha] at h
  cases answer with
  | error cause => cases h
  | ok answer =>
    dsimp only at h ⊢
    split at h
    · rename_i hr
      obtain ⟨value, hv⟩ := Option.isSome_iff_exists.mp hr
      refine ⟨value, ?_⟩
      simp only [Conversion.readAnswer, hv]
      rfl
    · cases h

theorem refusal?_eq_none_iff {source : Source σ} {name : Char} {state : σ} :
    source.refusal? name state = none ↔ ∃ answer, (source.answer name state).1 = .ok answer ∧
      (Number.read? (trim answer.toList)).isSome := by
  rw [refusal?]
  cases ha : (source.answer name state).1 with
  | error failure => simp
  | ok answer =>
    simp only [Except.ok.injEq]
    constructor
    · intro h
      refine ⟨answer, rfl, ?_⟩
      split at h
      · rename_i hs
        exact hs
      · cases h
    · rintro ⟨other, rfl, hs⟩
      rw [if_pos hs]

/-- The source answers with numerals when it is asked for these variables in this order. -/
def Serves (source : Source σ) (names : List Char) (state : σ) : Prop :=
  ∀ before name behind, names = before ++ name :: behind →
    ∃ answer, (source.answer name (source.after before state)).1 = .ok answer ∧
      (Number.read? (trim answer.toList)).isSome

theorem Serves.head {source : Source σ} {name : Char} {names : List Char} {state : σ}
    (h : source.Serves (name :: names) state) : source.refusal? name state = none :=
  refusal?_eq_none_iff.mpr (h [] name names rfl)

theorem Serves.tail {source : Source σ} {name : Char} {names : List Char} {state : σ}
    (h : source.Serves (name :: names) state) :
    source.Serves names (source.after [name] state) := by
  intro before other behind he
  exact h (name :: before) other behind (by rw [he]; rfl)

/-- Whenever it is asked for the variable, the source answers with this value and is left in an
alike state. -/
def Binds (source : Source σ) (name : Char) (value : Float) (state : σ) : Prop :=
  ∀ names, ∃ answer,
    (source.answer name (source.after names state)).1 = .ok answer ∧
      Number.read? (trim answer.toList) = some value ∧
      source.Alike (source.after (names ++ [name]) state) (source.after names state)

theorem Binds.run_value {source : Source σ} {name : Char} {value : Float} {state : σ}
    (h : source.Binds name value state) (names : List Char) :
    ∃ next, (source.value name).run (source.after names state) = .ok (value, next) ∧
      source.Alike next (source.after names state) := by
  obtain ⟨answer, ha, hv, hs⟩ := h names
  refine ⟨_, ?_, hs⟩
  rw [Source.run_value, after_append]
  change _ = Except.ok (value, (source.answer name (source.after names state)).2)
  rcases hn : source.answer name (source.after names state) with ⟨reply, next⟩
  rw [hn] at ha
  cases ha
  simp only [Conversion.readAnswer, hv]
  rfl

end Source

end Calculator
