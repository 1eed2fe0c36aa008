import Calculator.Proofs.Dialogue.Questions

/-!
# Runs up to places

The failure at a character tells its place in the text. Two dialogues that agree without
their notes and without such places ask the same questions of every source, leave it in
the same state and come to the same end, up to the place.
-/
namespace Calculator

variable {σ α β : Type}

/-- The failure without the place of a character. -/
def Failure.unplaced : Failure → Failure
  | invalidCharacter character _ => invalidCharacter character 0
  | failure => failure

theorem Failure.unplaced_unplaced (failure : Failure) :
    failure.unplaced.unplaced = failure.unplaced := by
  cases failure <;> rfl

theorem unplaced_outcome (outcome : Except Failure α) :
    (outcome.mapError Failure.unplaced).mapError Failure.unplaced =
      outcome.mapError Failure.unplaced := by
  cases outcome with
  | ok value => rfl
  | error failure => exact congrArg Except.error failure.unplaced_unplaced

/-- What a source sees of two runs, and how they end, up to the place of a character. -/
structure SameUpToPlaces (run other : Run σ α) : Prop where
  requests : run.requests = other.requests
  outcome : run.outcome.mapError Failure.unplaced = other.outcome.mapError Failure.unplaced
  state : run.state = other.state

namespace Dialogue

/-- The dialogue without the places of characters. -/
def unplaced : Dialogue α → Dialogue α
  | done outcome => done (outcome.mapError Failure.unplaced)
  | note record next => note record next.unplaced
  | ask name next => ask name fun answer => (next answer).unplaced

theorem unplaced_bind (dialogue : Dialogue α) (next : α → Dialogue β) :
    (dialogue >>= next).unplaced = dialogue.unplaced >>= fun value => (next value).unplaced := by
  induction dialogue with
  | done outcome => cases outcome <;> rfl
  | note record rest ih => exact congrArg (note record) ih
  | ask name rest ih =>
    rw [ask_bind, unplaced, unplaced, ask_bind]
    exact congrArg (ask name) (funext ih)

/-- The induction is on the dialogue; a failure of the source is the same in both runs. -/
theorem run_unplaced (source : Source σ) (dialogue : Dialogue α) (state : σ) :
    SameUpToPlaces (dialogue.run source state) (dialogue.unplaced.run source state) := by
  induction dialogue generalizing state with
  | done outcome => exact ⟨rfl, (unplaced_outcome outcome).symm, rfl⟩
  | note record rest ih =>
    obtain ⟨hr, ho, hs⟩ := ih state
    exact ⟨hr, ho, hs⟩
  | ask name rest ih =>
    rw [unplaced, run_ask, run_ask]
    rcases source.answer name state with ⟨answer, after⟩
    cases answer with
    | error failure => exact ⟨rfl, rfl, rfl⟩
    | ok text =>
      obtain ⟨hr, ho, hs⟩ := ih text after
      refine ⟨?_, ho, hs⟩
      dsimp only
      rw [Run.requests_asked, Run.requests_asked, hr]

/-- Dialogues that differ in their notes and in places only are the same to a source, up to
places. -/
theorem sameUpToPlaces_of_eq {dialogue other : Dialogue α}
    (h : dialogue.unnoted.unplaced = other.unnoted.unplaced) (source : Source σ) (state : σ) :
    SameUpToPlaces (dialogue.run source state) (other.run source state) := by
  obtain ⟨hr, ho, hs⟩ := dialogue.run_unnoted source state
  obtain ⟨hr', ho', hs'⟩ := other.run_unnoted source state
  obtain ⟨hrequests, houtcome, hstate⟩ := dialogue.unnoted.run_unplaced source state
  obtain ⟨hrequests', houtcome', hstate'⟩ := other.unnoted.run_unplaced source state
  rw [h] at hrequests houtcome hstate
  constructor
  · rw [hr, hr', hrequests, hrequests']
  · rw [ho, ho', houtcome, houtcome']
  · rw [hs, hs', hstate, hstate']

end Dialogue

end Calculator
