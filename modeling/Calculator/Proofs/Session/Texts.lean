import Calculator.Proofs.Dialogue.Wording
import Calculator.Session

/-!
# Texts at the console

What a report shows, character by character: a prompt for every question and a line with
the value or the failure.
-/
namespace Calculator

/-- A value is shown to a count of places if there is one, and in full otherwise. -/
def Shows : Option Nat → String → Float → Prop
  | none, line, value => Number.InFull line value
  | some places, line, value => Number.ToPlaces places line value

theorem shows_shownValue (precision : Option Nat) (value : Float) :
    Shows precision (shownValue precision value) value := by
  cases precision with
  | none => exact Number.inFull_text value
  | some places => exact Number.toPlaces_fixed places value

/-- The last line of a report. -/
inductive LastLine (precision : Option Nat) : Except Failure Float → String → Prop
  | value {value : Float} {line : String} (shows : Shows precision line value) :
      LastLine precision (.ok value) (line ++ "\n")
  | failure {reason : Failure} {line : String} (told : reason.Told line) :
      LastLine precision (.error reason) ("Error, " ++ line ++ "\n")

theorem lastLine_ofOutcome (precision : Option Nat) (outcome : Except Failure Float) :
    LastLine precision outcome (Output.ofOutcome precision outcome).text := by
  cases outcome with
  | ok value => exact .value (shows_shownValue precision value)
  | error reason => exact .failure reason.told

/-- The prompts for some variables. -/
def prompts (names : List Char) : String :=
  String.join (names.map fun name => "Enter value of " ++ String.singleton name ++ ": ")

/-- The text of some questions and the line behind them. -/
theorem exists_lastLine (precision : Option Nat) (questions : List Char)
    (outcome : Except Failure Float) : ∃ last, LastLine precision outcome last ∧
      String.join ((questions.map Output.question ++ [Output.ofOutcome precision outcome]).map
        Output.text) = prompts questions ++ last := by
  refine ⟨_, lastLine_ofOutcome precision outcome, ?_⟩
  rw [List.map_append, List.map_map, String.join_append, List.map_singleton, String.join_cons,
    String.join_nil, String.append_empty]
  rfl

end Calculator
