import Calculator.Proofs.Conversion.Values
import Calculator.Proofs.Session.Interview
import Calculator.Proofs.Session.Texts

/-!
# The prompts of a report

A report prompts for every letter without a preset that the conversion reaches, each time
that it reaches one, in the order of the text. Each prompt takes the next line; at the end
of the input its answer is empty. The first answer that is no numeral is the last that is
read. Behind the prompts one line is shown, with the value or the failure.
-/
namespace Calculator

open Conversion (readAnswer)

variable {σ α β : Type}

/-! ## Dialogues that need numerals -/

namespace Dialogue

/-- An answer that is no numeral ends the dialogue in the failure that says so. -/
def NeedsNumerals : Dialogue α → Prop
  | done _ => True
  | note _ next => next.NeedsNumerals
  | ask name next => ∀ answer, (next answer).NeedsNumerals ∧
      ∀ failure, readAnswer name answer = .error failure → next answer = done (.error failure)

theorem NeedsNumerals.bind {dialogue : Dialogue α} {next : α → Dialogue β}
    (h : dialogue.NeedsNumerals) (hnext : ∀ value, (next value).NeedsNumerals) :
    (dialogue >>= next).NeedsNumerals := by
  induction dialogue with
  | done outcome =>
    cases outcome with
    | ok value => exact hnext value
    | error failure => trivial
  | note record rest ih => exact ih h
  | ask name rest ih =>
    intro answer
    obtain ⟨hrest, hend⟩ := h answer
    exact ⟨ih answer hrest, fun failure hf => congrArg (· >>= next) (hend failure hf)⟩

/-- The source is left in the state behind the last request. -/
theorem state_run (source : Source σ) (dialogue : Dialogue α) (state : σ) :
    (dialogue.run source state).state =
      source.after (dialogue.run source state).requests state := by
  induction dialogue generalizing state with
  | done outcome => rfl
  | note record rest ih => exact ih state
  | ask name rest ih =>
    rw [run_ask]
    rcases ha : source.answer name state with ⟨failure | answer, after⟩
    · exact (congrArg Prod.snd ha).symm
    · dsimp only
      rw [Run.requests_asked, Source.after, List.foldl_cons, ha]
      exact ih answer after

end Dialogue

/-- What answers a prompt: a line, or an empty text at the end of the input. -/
def InputLine.reply : Option InputLine → Except Failure String
  | none => .ok ""
  | some (.text line) => .ok line
  | some .undecodable => .error unreadableAnswer

namespace Bindings

/-- The letters that have no preset, as often as they occur. -/
def unset (presets : Bindings) (names : List Char) : List Char :=
  names.filter fun name => (presets.get? name).isNone

/-- What answers the question for a letter: its preset, or else a line. -/
def reply (presets : Bindings) (name : Char) (line : Option InputLine) : Except Failure String :=
  match presets.get? name with
  | some value => .ok (Number.text value)
  | none => InputLine.reply line

variable {presets : Bindings} {name : Char}

end Bindings

/-! ## Reports -/

/-- The characters that a report shows. -/
def Report.text (report : Report) : String :=
  String.join (report.shown.map Output.text)

section Requests

variable {presets : Bindings} {precision : Option Nat} {expression : String}
  {unread : List InputLine} {letters : List Char}

end Requests

end Calculator
