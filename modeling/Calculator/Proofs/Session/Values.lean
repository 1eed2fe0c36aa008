import Calculator.Proofs.Conversion.Values
import Calculator.Proofs.Number.ReadBack
import Calculator.Proofs.Session.Interview
import Mathlib.Data.List.Forall2

/-!
# Presets and typed lines

A variable may be preset or typed at the console: the calculation is the same, as it is
against any two sources that give the same values. With presets for all variables the
console is not touched. Without them it shows one question for each request and reads
one line, in which blanks around the numeral do not count.
-/
namespace Calculator

open Text

variable {α σ τ : Type}

/-- The text of a double answers with it. -/
theorem readsAs_text (value : Float) : ReadsAs (Number.text value) value := by
  have hnone : ∀ c ∈ ([] : List Char), isBlank c = true := nofun
  have h := Number.read?_trim_text value hnone hnone
  rwa [List.nil_append, List.append_nil] at h

namespace Bindings

/-- A line types the value that a variable has: its text between blanks, such as a line ending, or
another answer that reads as it. -/
def TypedBy (presets : Bindings) (name : Char) (line : String) : Prop :=
  ∃ value, presets.get? name = some value ∧
    ((∃ left right, (∀ c ∈ left, isBlank c = true) ∧ (∀ c ∈ right, isBlank c = true) ∧
      line.toList = left ++ (Number.text value).toList ++ right) ∨ ReadsAs line value)

theorem TypedBy.readsAs {presets : Bindings} {name : Char} {line : String}
    (h : presets.TypedBy name line) :
    ∃ value, presets.get? name = some value ∧ ReadsAs line value := by
  obtain ⟨value, hv, ⟨left, right, hleft, hright, hline⟩ | hread⟩ := h
  · refine ⟨value, hv, ?_⟩
    rw [ReadsAs, hline]
    exact Number.read?_trim_text value hleft hright
  · exact ⟨value, hv, hread⟩

theorem source_answer_of_preset {presets : Bindings} {name : Char} {value : Float}
    (h : presets.get? name = some value) :
    presets.source.answer name () = (.ok (Number.text value), ()) := by
  simp only [source, answer, h]

end Bindings

/-! ## At the console -/

section Console

variable {letters : Char → Prop} {presets unset : Bindings}

/-- A preset answers unnoticed, as a binding does. -/
theorem run_ask_preset {name : Char} {value : Float} (h : presets.get? name = some value)
    (next : String → Dialogue α) (console : Console) :
    (Dialogue.ask name next).run presets.source () =
        ((next (Number.text value)).run presets.source ()).after (.asked name) ∧
      (Dialogue.ask name next).run presets.orConsole console =
        ((next (Number.text value)).run presets.orConsole console).after (.asked name) := by
  rw [Dialogue.run_ask, Dialogue.run_ask, Bindings.source_answer_of_preset h,
    Interview.answer_of_preset h]
  exact ⟨rfl, rfl⟩

/-- Without a preset the next line answers. -/
theorem run_ask_line {name : Char} (h : unset.get? name = none) (next : String → Dialogue α)
    (line : String) (unread : List InputLine) (shown : List Output) :
    (Dialogue.ask name next).run unset.orConsole ⟨.text line :: unread, shown⟩ =
      ((next line).run unset.orConsole ⟨unread, shown ++ [.question name]⟩).after
        (.asked name) := by
  rw [Dialogue.run_ask, Interview.answer_of_no_preset h]
  rfl

/-- Presets answer all questions, and the console stays as it is. -/
theorem Dialogue.AsksValues.run_presets {dialogue : Dialogue α} (h : dialogue.AsksValues letters)
    (hpreset : ∀ name, letters name → (presets.get? name).isSome) (console : Console) :
    SameCourse (dialogue.run presets.orConsole console) (dialogue.run presets.source ()) ∧
      (dialogue.run presets.orConsole console).state = console := by
  induction dialogue with
  | done outcome => exact ⟨⟨rfl, rfl⟩, rfl⟩
  | note record next ih =>
    obtain ⟨hcourse, hstate⟩ := ih h
    exact ⟨hcourse.after _, hstate⟩
  | ask name next ih =>
    obtain ⟨hname, -, hrest⟩ := h
    obtain ⟨value, hv⟩ := Option.isSome_iff_exists.mp (hpreset name hname)
    obtain ⟨hcourse, hstate⟩ := ih (Number.text value) (hrest _)
    obtain ⟨hsource, hconsole⟩ := run_ask_preset hv next console
    rw [hsource, hconsole]
    exact ⟨hcourse.after _, hstate⟩

/-- Lines that type the values do what presets would do. The induction is on the dialogue; each
question takes the first line that is left. -/
theorem Dialogue.AsksValues.run_typed {dialogue : Dialogue α} (h : dialogue.AsksValues letters)
    (hpreset : ∀ name, letters name → (presets.get? name).isSome)
    (hunset : ∀ name, letters name → unset.get? name = none) {lines : List String}
    (hlines : List.Forall₂ presets.TypedBy (dialogue.run presets.source ()).requests lines)
    (unread : List InputLine) (shown : List Output) :
    let run := dialogue.run unset.orConsole ⟨lines.map .text ++ unread, shown⟩
    SameCourse run (dialogue.run presets.source ()) ∧
      run.state = ⟨unread, shown ++ run.requests.map .question⟩ := by
  induction dialogue generalizing lines shown with
  | done outcome =>
    cases hlines
    exact ⟨⟨rfl, rfl⟩, congrArg (Console.mk unread) (List.append_nil shown).symm⟩
  | note record next ih =>
    obtain ⟨hcourse, hstate⟩ := ih h hlines shown
    exact ⟨hcourse.after _, hstate⟩
  | ask name next ih =>
    obtain ⟨hname, hsame, hrest⟩ := h
    obtain ⟨value, hv⟩ := Option.isSome_iff_exists.mp (hpreset name hname)
    obtain ⟨hsource, -⟩ := run_ask_preset hv next ⟨unread, shown⟩
    rw [hsource, Run.requests_asked] at hlines
    cases hlines with
    | @cons _ line _ lines hline hlines =>
      obtain ⟨other, ho, hread⟩ := hline.readsAs
      obtain rfl : value = other := Option.some.inj (hv.symm.trans ho)
      rw [← hsame line _ value hread (readsAs_text value)] at hsource hlines
      obtain ⟨hcourse, hstate⟩ := ih line (hrest line) hlines (shown ++ [.question name])
      rw [List.map_cons, List.cons_append, run_ask_line (hunset name hname), hsource]
      refine ⟨hcourse.after _, hstate.trans ?_⟩
      rw [Run.requests_asked, List.map_cons, List.append_assoc]
      rfl

end Console

/-! ## Expressions -/

/-- The conversion and the calculation of a text take the same course against two sources. -/
structure SameWork (text : String) (source : Source σ) (state : σ) (other : Source τ)
    (otherState : τ) : Prop where
  conversion : SameCourse ((convert text).run source state) ((convert text).run other otherState)
  calculation :
    SameCourse ((calculate text).run source state) ((calculate text).run other otherState)

/-- What both leave the source in. -/
structure Leaves (text : String) (source : Source σ) (state after : σ) : Prop where
  conversion : ((convert text).run source state).state = after
  calculation : ((calculate text).run source state).state = after

theorem SameCourse.sameWork {text : String} {source : Source σ} {state : σ} {other : Source τ}
    {otherState : τ}
    (h : SameCourse ((convert text).run source state) ((convert text).run other otherState)) :
    SameWork text source state other otherState :=
  ⟨h, h.calculation⟩

theorem leaves_of_convert {text : String} {source : Source σ} {state after : σ}
    (h : ((convert text).run source state).state = after) : Leaves text source state after :=
  ⟨h, (state_calculate source state text).trans h⟩

/-- Of the sources nothing counts but the values. In particular an expression whose variables are
all preset has the same result with and without a console, which is not touched, and with a
console where the values are typed, one line for each request. -/
theorem values_alone_count (text : String) :
    (∀ {σ τ : Type} (source : Source σ) (state : σ) (other : Source τ) (otherState : τ),
      SameValues source state ((convert text).run source state).requests
        other otherState ((convert text).run other otherState).requests →
      SameWork text source state other otherState) ∧
    ∀ presets : Bindings, (∀ name ∈ variablesOf text, (presets.get? name).isSome) →
      (∀ console, SameWork text presets.orConsole console presets.source () ∧
        Leaves text presets.orConsole console console) ∧
      ∀ unset : Bindings, (∀ name ∈ variablesOf text, unset.get? name = none) →
        ∀ lines unread shown,
          let requests := ((convert text).run presets.source ()).requests
          List.Forall₂ presets.TypedBy requests lines →
          SameWork text unset.orConsole ⟨lines.map .text ++ unread, shown⟩ presets.source () ∧
            Leaves text unset.orConsole ⟨lines.map .text ++ unread, shown⟩
              ⟨unread, shown ++ requests.map .question⟩ := by
  have hconvert := asksValues_convert text
  constructor
  · intro σ τ source state other otherState hvalues
    exact (hconvert.sameCourse hvalues).sameWork
  intro presets hpreset
  constructor
  · intro console
    obtain ⟨hcourse, hstate⟩ := hconvert.run_presets hpreset console
    exact ⟨hcourse.sameWork, leaves_of_convert hstate⟩
  · intro unset hunset lines unread shown requests hlines
    obtain ⟨hcourse, hstate⟩ := hconvert.run_typed hpreset hunset hlines unread shown
    rw [hcourse.requests] at hstate
    exact ⟨hcourse.sameWork, leaves_of_convert hstate⟩

/-- Two values in several forms: from a source that counts its questions, as presets, and typed. -/
theorem values_alone_count_in_difference :
    let source : Source Nat :=
      ⟨fun _ asked => (.ok (if asked = 1 then "-3\n" else " +2.0 "), asked + 1)⟩
    let presets := (Bindings.empty.set 'x' 2).set 'y' (-3)
    let console : Console := ⟨[.text "2\r\n", .text " -3\n", .text "2e0"], []⟩
    SameWork "x-y*x" source 0 presets.source () ∧
      SameWork "x-y*x" presets.orConsole console presets.source () ∧
      SameWork "x-y*x" Bindings.empty.orConsole console presets.source () := by
  intro source presets console
  obtain ⟨hsources, hpresets⟩ := values_alone_count "x-y*x"
  have hvariables : variablesOf "x-y*x" = ['x', 'y', 'x'] := by decide +kernel
  have hset : ∀ name ∈ variablesOf "x-y*x", (presets.get? name).isSome := by
    rw [hvariables]
    simp [presets, Bindings.get?_set]
  have hunset : ∀ name ∈ variablesOf "x-y*x", Bindings.empty.get? name = none := fun _ _ => rfl
  have hreplies : source.replies ((convert "x-y*x").run source 0).requests 0 =
      [.ok " +2.0 ", .ok "-3\n", .ok " +2.0 "] := by decide +kernel
  have hrequests : ((convert "x-y*x").run presets.source ()).requests = ['x', 'y', 'x'] := by
    decide +kernel
  have hpreset : presets.source.replies ((convert "x-y*x").run presets.source ()).requests () =
      [.ok "2", .ok "-3", .ok "2"] := by decide +kernel
  obtain ⟨hconsole, htyped⟩ := hpresets presets hset
  refine ⟨hsources source 0 presets.source () ?_, (hconsole console).1, ?_⟩
  · constructor
    · rw [hreplies]
      simp [Except.isOk, Except.toBool]
    · rw [hpreset]
      simp [Except.isOk, Except.toBool]
    · rw [hreplies, hpreset]
      rintro (_ | _ | _ | place) answer reply ⟨⟩ ⟨⟩
      · exact ⟨2, by decide +kernel, by decide +kernel⟩
      · exact ⟨-3, by decide +kernel, by decide +kernel⟩
      · exact ⟨2, by decide +kernel, by decide +kernel⟩
  · refine (htyped Bindings.empty hunset ["2\r\n", " -3\n", "2e0"] [] [] ?_).1
    rw [hrequests]
    have hx : presets.get? 'x' = some 2 := by simp [presets, Bindings.get?_set]
    have hy : presets.get? 'y' = some (-3) := by simp [presets, Bindings.get?_set]
    have hending : ∀ c ∈ ['\r', '\n'], isBlank c = true := by simp; decide
    have hspace : ∀ c ∈ [' '], isBlank c = true := by simp; decide
    have hfeed : ∀ c ∈ ['\n'], isBlank c = true := by simp; decide
    have hfirst : presets.TypedBy 'x' "2\r\n" :=
      ⟨2, hx, .inl ⟨[], ['\r', '\n'], nofun, hending, by decide +kernel⟩⟩
    have hsecond : presets.TypedBy 'y' " -3\n" :=
      ⟨-3, hy, .inl ⟨[' '], ['\n'], hspace, hfeed, by decide +kernel⟩⟩
    have hthird : presets.TypedBy 'x' "2e0" := ⟨2, hx, .inr (by decide +kernel)⟩
    exact .cons hfirst (.cons hsecond (.cons hthird .nil))

end Calculator
