import Calculator.Proofs.Dialogue.Play

/-!
# The questions of a dialogue

A dialogue without its notes asks the same questions and comes to the same end against
every source. Two dialogues that are equal without their notes therefore cannot be told
apart by any source.
-/
namespace Calculator

variable {σ α β : Type}

namespace Dialogue

/-- The dialogue without its notes. -/
def unnoted : Dialogue α → Dialogue α
  | done outcome => done outcome
  | note _ next => next.unnoted
  | ask name next => ask name fun answer => (next answer).unnoted

theorem unnoted_bind (dialogue : Dialogue α) (next : α → Dialogue β) :
    (dialogue >>= next).unnoted = dialogue.unnoted >>= fun value => (next value).unnoted := by
  induction dialogue with
  | done outcome => cases outcome <;> rfl
  | note record rest ih => exact ih
  | ask name rest ih =>
    rw [ask_bind, unnoted, unnoted, ask_bind]
    exact congrArg (ask name) (funext ih)

theorem play_unnoted (source : Source σ) (dialogue : Dialogue α) :
    dialogue.unnoted.play source = dialogue.play source := by
  induction dialogue with
  | done outcome => rfl
  | note record rest ih => exact ih
  | ask name rest ih =>
    rw [unnoted, play_ask, play_ask]
    exact congrArg _ (funext ih)

theorem map_done (f : α → β) (outcome : Except Failure α) :
    f <$> done outcome = done (outcome.map f) := by
  rw [map_eq_pure_bind]
  cases outcome <;> rfl

theorem done_bind_done (f : α → Except Failure β) (outcome : Except Failure α) :
    (done outcome >>= fun value => done (f value)) = done (outcome.bind f) := by
  cases outcome <;> rfl

theorem run_ask (source : Source σ) (state : σ) (name : Char) (next : String → Dialogue α) :
    (ask name next).run source state =
      match source.answer name state with
      | (.ok text, state) => ((next text).run source state).after (.asked name)
      | (.error failure, state) => ⟨[.asked name], .error failure, state⟩ := by
  rcases h : source.answer name state with ⟨failure | text, after⟩
  · simp only [run, h]
  · simp only [run, h]

end Dialogue

namespace Run

theorem requests_asked (name : Char) (run : Run σ α) :
    (run.after (.asked name)).requests = name :: run.requests := rfl

/-- The run with another result. -/
def map (f : α → β) (run : Run σ α) : Run σ β :=
  { run with outcome := run.outcome.map f }

end Run

/-- What a source sees of two runs, and how they end. -/
structure SameQuestions (run other : Run σ α) : Prop where
  requests : run.requests = other.requests
  outcome : run.outcome = other.outcome
  state : run.state = other.state

namespace Dialogue

/-- The induction is on the dialogue; a note is not seen and every question is asked of the same
state. -/
theorem run_unnoted (source : Source σ) (dialogue : Dialogue α) (state : σ) :
    SameQuestions (dialogue.run source state) (dialogue.unnoted.run source state) := by
  induction dialogue generalizing state with
  | done outcome => exact ⟨rfl, rfl, rfl⟩
  | note record rest ih =>
    obtain ⟨hr, ho, hs⟩ := ih state
    exact ⟨hr, ho, hs⟩
  | ask name rest ih =>
    rw [unnoted, run_ask, run_ask]
    rcases source.answer name state with ⟨answer, after⟩
    cases answer with
    | error failure => exact ⟨rfl, rfl, rfl⟩
    | ok text =>
      obtain ⟨hr, ho, hs⟩ := ih text after
      refine ⟨?_, ho, hs⟩
      dsimp only
      rw [Run.requests_asked, Run.requests_asked, hr]

/-- Dialogues that differ in their notes only are the same to a source. -/
theorem sameQuestions_of_unnoted_eq {dialogue other : Dialogue α}
    (h : dialogue.unnoted = other.unnoted) (source : Source σ) (state : σ) :
    SameQuestions (dialogue.run source state) (other.run source state) := by
  obtain ⟨hr, ho, hs⟩ := dialogue.run_unnoted source state
  obtain ⟨hr', ho', hs'⟩ := other.run_unnoted source state
  rw [h] at hr ho hs
  exact ⟨hr.trans hr'.symm, ho.trans ho'.symm, hs.trans hs'.symm⟩

/-- Questions do not depend on what is made of the result. -/
theorem run_map (source : Source σ) (f : α → β) (dialogue : Dialogue α) (state : σ) :
    (f <$> dialogue).run source state = (dialogue.run source state).map f := by
  rw [map_eq_pure_bind]
  induction dialogue generalizing state with
  | done outcome => cases outcome <;> rfl
  | note record rest ih =>
    rw [note_bind, run, ih state]
    rfl
  | ask name rest ih =>
    rw [ask_bind, run_ask, run_ask]
    rcases source.answer name state with ⟨answer, after⟩
    cases answer with
    | error failure => rfl
    | ok text =>
      dsimp only
      rw [ih text after]
      rfl

/-- A dialogue plays to a result exactly if its run does, and leaves the same state. -/
theorem play_eq_ok_iff {source : Source σ} {dialogue : Dialogue α} {state after : σ} {value : α} :
    (dialogue.play source).run state = .ok (value, after) ↔
      (dialogue.run source state).outcome = .ok value ∧
        (dialogue.run source state).state = after := by
  induction dialogue generalizing state with
  | done outcome =>
    rw [play_done, Answering.run_ofOutcome_eq_ok_iff]
    exact and_congr_right fun _ => eq_comm
  | note record rest ih => exact ih
  | ask name rest ih =>
    rw [play_ask, StateT.run_bind, run_ask]
    simp only [Source.ask, StateT.run]
    rcases source.answer name state with ⟨answer, next⟩
    cases answer with
    | error failure =>
      constructor
      · intro h
        cases h
      · rintro ⟨h, -⟩
        cases h
    | ok text => exact ih text

end Dialogue

end Calculator
