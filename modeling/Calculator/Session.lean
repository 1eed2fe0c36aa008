import Calculator.Bindings
import Calculator.Calculation
import Calculator.InputLine

/-!
# Sessions

A report evaluates one expression, asking at the console for every variable without a
preset, and shows the value or the failure. A session reports line after line until a
blank one or the end of the input. It keeps nothing from one report to the next but
the place in the input.
-/
namespace Calculator

/-- One thing shown at the console. -/
inductive Output where
  /-- The invitation to enter an expression. -/
  | ready
  /-- The question for the value of a variable. -/
  | question (name : Char)
  | value (written : String)
  | failure (reason : Failure)
  | notice (text : String)
deriving DecidableEq

/-- What the console shows, character by character. -/
def Output.text : Output → String
  | ready => "> "
  | question name => s!"Enter value of {name}: "
  | value written => s!"{written}\n"
  | failure reason => s!"Error, {reason.message}\n"
  | notice text => text

/-- A console during a report. -/
structure Console where
  /-- The lines that have not been read. -/
  unread : List InputLine
  /-- What the report has shown, in order. -/
  shown : List Output
deriving DecidableEq

namespace Console

/-- Asks for a variable and reads one line; at the end of the input the answer is empty. -/
def question (name : Char) (console : Console) : Except Failure String × Console :=
  let shown := console.shown ++ [.question name]
  match console.unread with
  | [] => (.ok "", ⟨[], shown⟩)
  | .text line :: unread => (.ok line, ⟨unread, shown⟩)
  | .undecodable :: unread =>
    (.error (.unreadableInput "stream did not contain valid UTF-8"), ⟨unread, shown⟩)

end Console

/-- The source that answers from presets where it can and asks at the console otherwise. -/
def Bindings.orConsole (presets : Bindings) : Source Console where
  answer name console :=
    match presets.get? name with
    | some value => (.ok (Number.text value), console)
    | none => console.question name

/-- A value as it is shown: with a count of places if there is one. -/
def shownValue (precision : Option Nat) (value : Float) : String :=
  match precision with
  | some places => Number.fixed places value
  | none => Number.text value

/-- The last line of a report. -/
def Output.ofOutcome (precision : Option Nat) : Except Failure Float → Output
  | .ok result => value (shownValue precision result)
  | .error reason => failure reason

/-- The run of an expression's calculation at a console that has shown nothing yet. -/
def consoleRun (presets : Bindings) (expression : String) (unread : List InputLine) :
    Run Console Float :=
  (calculate expression).run presets.orConsole ⟨unread, []⟩

structure Report where
  shown : List Output
  unread : List InputLine
  succeeded : Bool
deriving DecidableEq

/-- The report of an expression, with the lines that can answer its questions. -/
def report (presets : Bindings) (precision : Option Nat) (expression : String)
    (unread : List InputLine) : Report :=
  let run := consoleRun presets expression unread
  { shown := run.state.shown ++ [.ofOutcome precision run.outcome]
    unread := run.state.unread
    succeeded := run.outcome.isOk }

/-- What a program shows until its end, and its exit status. -/
structure Exchange where
  shown : List Output
  status : Nat
deriving DecidableEq

/-- The exchange after something else has been shown. -/
def Exchange.after (shown : List Output) (exchange : Exchange) : Exchange :=
  { exchange with shown := shown ++ exchange.shown }

/-- Everything that an exchange shows. -/
def Exchange.text (exchange : Exchange) : String :=
  String.join (exchange.shown.map Output.text)

theorem Console.question_unread_length_le (name : Char) (console : Console) :
    (console.question name).2.unread.length ≤ console.unread.length := by
  rcases console with ⟨_ | ⟨_ | _, _⟩, _⟩ <;> simp [question]

/-- A run at the console reads on in the input. -/
theorem Dialogue.run_unread_length_le {α : Type} (presets : Bindings) (dialogue : Dialogue α) :
    ∀ console : Console,
      (dialogue.run presets.orConsole console).state.unread.length ≤ console.unread.length := by
  induction dialogue with
  | done outcome => intro console; exact Nat.le_refl _
  | note record next ih => exact ih
  | ask name next ih =>
    intro console
    have asked : (presets.orConsole.answer name console).2.unread.length
        ≤ console.unread.length := by
      unfold Bindings.orConsole
      dsimp only
      split
      · exact Nat.le_refl _
      · exact Console.question_unread_length_le name console
    unfold Dialogue.run
    split <;> rename_i equation <;> rw [equation] at asked
    · exact Nat.le_trans (ih _ _) asked
    · exact asked

/-- A report leaves no more lines than it began with. -/
theorem report_unread_length_le (presets : Bindings) (precision : Option Nat)
    (expression : String) (unread : List InputLine) :
    (report presets precision expression unread).unread.length ≤ unread.length :=
  Dialogue.run_unread_length_le presets (calculate expression) ⟨unread, []⟩

/-- What a session does with the next line. -/
inductive Turn where
  /-- Ends with a status. -/
  | finish (status : Nat)
  /-- Reports an expression and goes on. -/
  | evaluate (expression : String)
deriving DecidableEq

/-- A line of blanks ends a session, an unreadable one ends it badly. -/
def Turn.ofLine : InputLine → Turn
  | .undecodable => finish 1
  | .text line => if line.toList.all Text.isBlank then finish 0 else evaluate line

/-- The session on the lines of an input. -/
def session (presets : Bindings) (precision : Option Nat) (input : List InputLine) : Exchange :=
  match input with
  | [] => ⟨[.ready], 0⟩
  | line :: unread =>
    match Turn.ofLine line with
    | .finish status => ⟨[.ready], status⟩
    | .evaluate expression =>
      let report := report presets precision expression unread
      (session presets precision report.unread).after (.ready :: report.shown)
termination_by input.length
decreasing_by
  have := report_unread_length_le presets precision expression unread
  simp only [List.length_cons]
  omega

end Calculator
