import Calculator.Proofs.Dialogue.Questions
import Calculator.Session

/-!
# Dialogues at a console

A dialogue at a console asks some questions there and reads one line for each, as long as
there are lines. Which ones depends on the presets and the lines alone: what the console
has shown before stays as it is and has no influence.
-/
namespace Calculator

variable {α : Type}

/-- Why a dialogue fails at an answer that is not text. -/
def unreadableAnswer : Failure :=
  .unreadableInput "stream did not contain valid UTF-8"

/-- The questions that a dialogue asks at a console before these lines, the lines that answer them,
the lines that are left, and how the dialogue ends. -/
structure Interview (presets : Bindings) (dialogue : Dialogue α) (lines : List InputLine)
    (questions : List Char) (answers left : List InputLine) (outcome : Except Failure α) :
    Prop where
  inOrder : lines = answers ++ left
  /-- Every question has a line of its own, up to the end of the input. -/
  answered : answers.length = min questions.length lines.length
  unreadable : .undecodable ∈ answers → outcome = .error unreadableAnswer
  /-- Whatever the console has shown, it shows the questions behind it. -/
  state_run : ∀ shown, (dialogue.run presets.orConsole ⟨lines, shown⟩).state =
    ⟨left, shown ++ questions.map .question⟩
  outcome_run : ∀ shown, (dialogue.run presets.orConsole ⟨lines, shown⟩).outcome = outcome

namespace Interview

variable {presets : Bindings} {lines answers left : List InputLine} {questions : List Char}
  {outcome : Except Failure α} {name : Char} {next : String → Dialogue α}

theorem done (presets : Bindings) (outcome : Except Failure α) (lines : List InputLine) :
    Interview presets (.done outcome) lines [] [] lines outcome where
  inOrder := rfl
  answered := (Nat.zero_min _).symm
  unreadable := nofun
  state_run shown := congrArg (Console.mk lines) (List.append_nil shown).symm
  outcome_run _ := rfl

theorem note (record : Record) {dialogue : Dialogue α}
    (h : Interview presets dialogue lines questions answers left outcome) :
    Interview presets (.note record dialogue) lines questions answers left outcome :=
  ⟨h.inOrder, h.answered, h.unreadable, h.state_run, h.outcome_run⟩

theorem answer_of_preset {value : Float} (hv : presets.get? name = some value)
    (console : Console) :
    presets.orConsole.answer name console = (.ok (Number.text value), console) := by
  simp only [Bindings.orConsole, hv]

/-- Without a preset the answer is that of the console. -/
theorem answer_of_no_preset (hn : presets.get? name = none) (console : Console) :
    presets.orConsole.answer name console = console.question name := by
  simp only [Bindings.orConsole, hn]

/-- A preset answers unnoticed. -/
theorem ask_preset {value : Float} (hv : presets.get? name = some value)
    (h : Interview presets (next (Number.text value)) lines questions answers left outcome) :
    Interview presets (.ask name next) lines questions answers left outcome := by
  constructor
  · exact h.inOrder
  · exact h.answered
  · exact h.unreadable
  · intro shown
    rw [Dialogue.run_ask, answer_of_preset hv]
    exact h.state_run shown
  · intro shown
    rw [Dialogue.run_ask, answer_of_preset hv]
    exact h.outcome_run shown

theorem ask_line {line : String} (hn : presets.get? name = none)
    (h : Interview presets (next line) lines questions answers left outcome) :
    Interview presets (.ask name next) (.text line :: lines) (name :: questions)
      (.text line :: answers) left outcome := by
  have hanswered := h.answered
  constructor
  · rw [h.inOrder, List.cons_append]
  · simp only [List.length_cons]
    omega
  · intro hm
    rcases List.mem_cons.mp hm with hm | hm
    · cases hm
    · exact h.unreadable hm
  · intro shown
    rw [Dialogue.run_ask, answer_of_no_preset hn]
    exact (h.state_run _).trans (by simp)
  · intro shown
    rw [Dialogue.run_ask, answer_of_no_preset hn]
    exact h.outcome_run _

theorem ask_undecodable (next : String → Dialogue α) (hn : presets.get? name = none)
    (lines : List InputLine) :
    Interview presets (.ask name next) (.undecodable :: lines) [name] [.undecodable] lines
      (.error unreadableAnswer) := by
  constructor
  · rfl
  · simp only [List.length_cons, List.length_nil]
    omega
  · exact fun _ => rfl
  · intro shown
    rw [Dialogue.run_ask, answer_of_no_preset hn]
    rfl
  · intro shown
    rw [Dialogue.run_ask, answer_of_no_preset hn]
    rfl

/-- At the end of the input the answer is empty and no line is read. -/
theorem ask_end (hn : presets.get? name = none)
    (h : Interview presets (next "") [] questions answers left outcome) :
    Interview presets (.ask name next) [] (name :: questions) answers left outcome := by
  constructor
  · exact h.inOrder
  · exact h.answered.trans (by simp)
  · exact h.unreadable
  · intro shown
    rw [Dialogue.run_ask, answer_of_no_preset hn]
    exact (h.state_run _).trans (by simp)
  · intro shown
    rw [Dialogue.run_ask, answer_of_no_preset hn]
    exact h.outcome_run _

end Interview

/-- The induction is on the dialogue; a question goes on with the lines behind its answer. -/
theorem exists_interview (presets : Bindings) (dialogue : Dialogue α) :
    ∀ lines, ∃ questions answers left outcome,
      Interview presets dialogue lines questions answers left outcome := by
  induction dialogue with
  | done outcome => exact fun lines => ⟨[], [], lines, outcome, .done presets outcome lines⟩
  | note record rest ih =>
    intro lines
    obtain ⟨questions, answers, left, outcome, h⟩ := ih lines
    exact ⟨questions, answers, left, outcome, h.note record⟩
  | ask name next ih =>
    intro lines
    cases hv : presets.get? name with
    | some value =>
      obtain ⟨questions, answers, left, outcome, h⟩ := ih (Number.text value) lines
      exact ⟨questions, answers, left, outcome, h.ask_preset hv⟩
    | none =>
      rcases lines with _ | ⟨line | _, lines⟩
      · obtain ⟨questions, answers, left, outcome, h⟩ := ih "" []
        exact ⟨name :: questions, answers, left, outcome, h.ask_end hv⟩
      · obtain ⟨questions, answers, left, outcome, h⟩ := ih line lines
        exact ⟨name :: questions, .text line :: answers, left, outcome, h.ask_line hv⟩
      · exact ⟨[name], [.undecodable], lines, .error unreadableAnswer,
          .ask_undecodable next hv lines⟩

end Calculator
