import Calculator.Proofs.Dialogue.Alike
import Calculator.Proofs.Dialogue.Questions

/-!
# The failures of a dialogue

A run that fails either comes to a failure of the dialogue itself or the source fails at
the last question, and that failure is passed on.
-/
namespace Calculator

variable {σ α β : Type}

namespace Run

/-- The source has answered the last question with this failure. -/
def Refused (source : Source σ) (start : σ) (run : Run σ α) (failure : Failure) : Prop :=
  ∃ names name, run.requests = names ++ [name] ∧
    (source.answer name (source.after names start)).1 = .error failure

end Run

namespace Dialogue

/-- The failures in which a dialogue itself ends, whatever the answers are. -/
inductive FailsOnly (failures : Failure → Prop) : Dialogue α → Prop
  | ok (value : α) : FailsOnly failures (done (.ok value))
  | error {failure : Failure} (h : failures failure) : FailsOnly failures (done (.error failure))
  | note (record : Record) {next : Dialogue α} (h : FailsOnly failures next) :
      FailsOnly failures (note record next)
  | ask (name : Char) {next : String → Dialogue α}
      (h : ∀ answer, FailsOnly failures (next answer)) : FailsOnly failures (ask name next)

namespace FailsOnly

variable {failures : Failure → Prop} {dialogue : Dialogue α}

theorem bind {next : α → Dialogue β} (h : dialogue.FailsOnly failures)
    (hnext : ∀ value, (next value).FailsOnly failures) :
    (dialogue >>= next).FailsOnly failures := by
  induction h with
  | ok value => exact hnext value
  | error h => exact .error h
  | note record h ih => exact .note record ih
  | ask name h ih => exact .ask name ih

/-- The induction is on the dialogue; a question that is answered comes before the last one. -/
theorem run_error (h : dialogue.FailsOnly failures) {source : Source σ} {state : σ}
    {failure : Failure} (hf : (dialogue.run source state).outcome = .error failure) :
    failures failure ∨ (dialogue.run source state).Refused source state failure := by
  induction h generalizing state with
  | ok value => cases hf
  | error h =>
    cases hf
    exact .inl h
  | note record h ih => exact ih hf
  | ask name h ih =>
    rw [run_ask] at hf ⊢
    rcases ha : source.answer name state with ⟨reply | answer, after⟩
    · rw [ha] at hf
      cases hf
      exact .inr ⟨[], name, rfl, congrArg Prod.fst ha⟩
    · rw [ha] at hf
      dsimp only at hf ⊢
      obtain hown | ⟨names, last, hrequests, hlast⟩ := ih answer hf
      · exact .inl hown
      · refine .inr ⟨name :: names, last, ?_, ?_⟩
        · rw [Run.requests_asked, hrequests, List.cons_append]
        · rw [Source.after, List.foldl_cons, ha]
          exact hlast

end FailsOnly

end Dialogue

end Calculator
