import Calculator.Proofs.Dialogue.Questions

/-!
# The events of a dialogue in sequence

A dialogue that goes on with the result of another runs like the two one after the
other: its events follow those of the first, from the state that the first leaves. If
the first fails, nothing follows.
-/
namespace Calculator

variable {σ α β : Type}

/-- The run that goes on with the result of another, from the state that it leaves. -/
def Run.andThen (run : Run σ α) (next : α → σ → Run σ β) : Run σ β :=
  match run.outcome with
  | .error failure => ⟨run.events, .error failure, run.state⟩
  | .ok value =>
    let rest := next value run.state
    ⟨run.events ++ rest.events, rest.outcome, rest.state⟩

namespace Run

variable {run : Run σ α} {next : α → σ → Run σ β}

theorem andThen_of_ok {value : α} (h : run.outcome = .ok value) :
    run.andThen next = ⟨run.events ++ (next value run.state).events,
      (next value run.state).outcome, (next value run.state).state⟩ := by
  rw [andThen, h]

theorem andThen_of_error {failure : Failure} (h : run.outcome = .error failure) :
    run.andThen next = ⟨run.events, .error failure, run.state⟩ := by
  rw [andThen, h]

theorem after_andThen (event : Event) (run : Run σ α) (next : α → σ → Run σ β) :
    (run.after event).andThen next = (run.andThen next).after event := by
  rcases h : run.outcome with failure | value
  · rw [andThen_of_error h, andThen_of_error (show (run.after event).outcome = _ from h)]
    rfl
  · rw [andThen_of_ok h, andThen_of_ok (show (run.after event).outcome = _ from h)]
    rfl

end Run

theorem Dialogue.run_bind (source : Source σ) (dialogue : Dialogue α) (next : α → Dialogue β)
    (state : σ) : (dialogue >>= next).run source state =
      (dialogue.run source state).andThen fun value after => (next value).run source after := by
  induction dialogue generalizing state with
  | done outcome => cases outcome <;> rfl
  | note record rest ih =>
    rw [note_bind, run, run, ih, Run.after_andThen]
  | ask name rest ih =>
    rw [ask_bind, run_ask, run_ask]
    rcases source.answer name state with ⟨answer, after⟩
    cases answer with
    | error failure => rfl
    | ok text =>
      dsimp only
      rw [ih, Run.after_andThen]

end Calculator
