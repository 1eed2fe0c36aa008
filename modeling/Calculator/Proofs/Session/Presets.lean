import Calculator.CommandLine
import Calculator.Proofs.Conversion.Inquiry
import Calculator.Proofs.Grammar.Spelling
import Calculator.Proofs.Number.Negation
import Calculator.Proofs.Session.Values

/-!
# Presets from the command line

Of several assignments to a letter the last one counts. The expression that is the letter
alone then has this value, any double, and nothing is asked. Without an assignment the
console is asked for the letter, or it is undefined.
-/
namespace Calculator

open Text
open Conversion (askValue readAnswer)

variable {σ : Type} {name : Char}

/-! ## The last assignment counts -/

/-- The text is an assignment of the value to the letter. -/
def Assigns (text : String) (name : Char) (value : Float) : Prop :=
  Assignment.read text.toList = .ok ⟨name, value⟩

/-- The presets have been read from the texts. -/
def Accepts (texts : List String) (presets : List Assignment) : Prop :=
  List.Forall₂ (fun text preset => Assigns text preset.name preset.value) texts presets

theorem Accepts.name_ne {texts : List String} {presets : List Assignment}
    (h : Accepts texts presets) (hnone : ∀ text ∈ texts, ∀ value, ¬ Assigns text name value) :
    ∀ preset ∈ presets, preset.name ≠ name := by
  induction h with
  | nil => exact nofun
  | @cons text preset texts presets hfirst _ ih =>
    rw [List.forall_mem_cons] at hnone ⊢
    refine ⟨fun hname => ?_, ih hnone.2⟩
    rw [hname] at hfirst
    exact hnone.1 preset.value hfirst

/-- The preset of a text stands where the text does. -/
theorem Accepts.exists_split {earlier later : List String} {text : String}
    {presets : List Assignment} (h : Accepts (earlier ++ text :: later) presets) :
    ∃ before preset behind, presets = before ++ preset :: behind ∧
      Assigns text preset.name preset.value ∧ Accepts later behind := by
  have hdrop := List.forall₂_drop_append presets earlier (text :: later) (List.Forall₂.flip h)
  obtain ⟨preset, behind, hfirst, hrest, hsplit⟩ := List.forall₂_cons_right_iff.mp hdrop
  refine ⟨presets.take earlier.length, preset, behind, ?_, hfirst, List.Forall₂.flip hrest⟩
  rw [← hsplit, List.take_append_drop]

/-- The bindings with some presets in addition. -/
def Bindings.setAll (presets : List Assignment) (bindings : Bindings) : Bindings :=
  presets.foldl (fun bindings preset => bindings.set preset.name preset.value) bindings

theorem Bindings.get?_setAll_of_ne {presets : List Assignment}
    (h : ∀ preset ∈ presets, preset.name ≠ name) (bindings : Bindings) :
    (bindings.setAll presets).get? name = bindings.get? name := by
  induction presets generalizing bindings with
  | nil => rfl
  | cons preset presets ih =>
    rw [List.forall_mem_cons] at h
    change ((bindings.set preset.name preset.value).setAll presets).get? name = _
    rw [ih h.2, get?_set, if_neg h.1.symm]

theorem presets_eq_setAll (invocation : Invocation) :
    CommandLine.presets invocation = Bindings.empty.setAll invocation.presets :=
  List.foldl_map

theorem get?_presets_of_last {invocation : Invocation} {before behind : List Assignment}
    {preset : Assignment} (h : invocation.presets = before ++ preset :: behind)
    (hbehind : ∀ other ∈ behind, other.name ≠ preset.name) :
    (CommandLine.presets invocation).get? preset.name = some preset.value := by
  have hsplit : Bindings.empty.setAll invocation.presets =
      ((Bindings.empty.setAll before).set preset.name preset.value).setAll behind := by
    rw [h, Bindings.setAll, List.foldl_append]
    rfl
  rw [presets_eq_setAll, hsplit, Bindings.get?_setAll_of_ne hbehind, Bindings.get?_set, if_pos rfl]

theorem isAlphabetic_of_letter? {text : List Char} (h : Assignment.letter? text = some name) :
    isAlphabetic name = true := by
  rcases text with _ | ⟨c, _ | ⟨d, rest⟩⟩
  · cases h
  · rw [Assignment.letter?] at h
    split at h
    · cases h
      assumption
    · cases h
  · cases h

/-- Only a letter can be assigned to. -/
theorem isAlphabetic_of_read {text : List Char} {assignment : Assignment}
    (h : Assignment.read text = .ok assignment) : isAlphabetic assignment.name = true := by
  rw [Assignment.read] at h
  split at h
  · cases h
  · dsimp only at h
    split at h
    · cases h
    · cases h
    · rename_i hletter _
      cases h
      exact isAlphabetic_of_letter? hletter

/-! ## A letter alone -/

/-- The evaluation takes a magnitude and its negation together again. -/
theorem evaluate_addVariable (value : Float) :
    (ShuntingYard.empty.addVariable value).finish.bind evaluate = .ok value := by
  rw [ShuntingYard.addVariable]
  split
  · change Except.ok (- -value) = _
    rw [Number.neg_neg]
  · rfl

theorem unnoted_calculate_letter (hname : isAlphabetic name = true) {expression : String}
    {left right : List Char} (hleft : ∀ c ∈ left, isBlank c = true)
    (hright : ∀ c ∈ right, isBlank c = true) (he : expression.toList = left ++ [name] ++ right) :
    (calculate expression).unnoted = (askValue name).unnoted := by
  let mark : Mark Operand := .operand (.letter ⟨name, hname⟩)
  have hs : Spelling ([] ++ [mark] ++ []) expression.toList := by
    rw [he]
    exact ((Spelling.blanks hleft).append (.singleton mark)).append (Spelling.blanks hright)
  have hstages : Stage.leading.through? ([] ++ [mark] ++ []) = some .complete := rfl
  rw [unnoted_calculate, unnoted_convert, hs.readRuns_eq hstages 0 .leading nofun (by decide)]
  change (ShuntingYard.empty.inquire [.letter name] >>= fun yard => _) >>= _ = _
  rw [ShuntingYard.inquire, Symbol.inquire]
  simp only [map_eq_pure_bind, bind_assoc, pure_bind]
  refine Eq.trans ?_ (Dialogue.bind_done_ok (askValue name).unnoted)
  congr 1
  funext value
  change Dialogue.done (ShuntingYard.empty.addVariable value).finish >>= _ = _
  rw [← evaluate_addVariable value]
  exact Dialogue.done_bind_done _ _

/-- A letter alone is asked for once and is worth what the source answers. -/
theorem run_calculate_letter (source : Source σ) (state : σ) (hname : isAlphabetic name = true)
    {expression : String} {left right : List Char} (hleft : ∀ c ∈ left, isBlank c = true)
    (hright : ∀ c ∈ right, isBlank c = true) (he : expression.toList = left ++ [name] ++ right) :
    ((calculate expression).run source state).requests = [name] ∧
      ((calculate expression).run source state).outcome =
        (source.answer name state).1.bind (readAnswer name) ∧
      ((calculate expression).run source state).state = (source.answer name state).2 := by
  have hunnoted := unnoted_calculate_letter hname hleft hright he
  obtain ⟨hr, ho, hs⟩ := Dialogue.sameQuestions_of_unnoted_eq hunnoted source state
  obtain ⟨hevents, hstate⟩ := Conversion.run_askValue source state name
  have hrequests : ((askValue name).run source state).requests = [name] := by
    change asked _ = [name]
    rw [hevents, asked_inquiry]
  exact ⟨hr.trans hrequests, ho.trans (Conversion.outcome_askValue source state name),
    hs.trans hstate⟩

/-! ## Letters under presets -/

/-- The expression has a value under the presets, with a console, which stays as it is, and
without one. -/
structure Bindings.Settle (presets : Bindings) (expression : String) (value : Float) : Prop where
  console : ∀ console,
    ((calculate expression).run presets.orConsole console).outcome = .ok value ∧
      ((calculate expression).run presets.orConsole console).state = console
  alone : ((calculate expression).run presets.source ()).outcome = .ok value

/-- The console is asked for the letter that the expression is, once, and without a console the
letter is undefined. -/
structure Bindings.LeaveOpen (presets : Bindings) (expression : String) (name : Char) : Prop where
  console : ∀ console,
    ((calculate expression).run presets.orConsole console).requests = [name] ∧
      ((calculate expression).run presets.orConsole console).outcome =
        (console.question name).1.bind (readAnswer name) ∧
      ((calculate expression).run presets.orConsole console).state = (console.question name).2
  alone : ((calculate expression).run presets.source ()).outcome =
    .error (.undefinedVariable name)

section Alone

variable {presets : Bindings} {expression : String} {left right : List Char}

theorem Bindings.settle_of_get? {value : Float} (hname : isAlphabetic name = true)
    (hvalue : presets.get? name = some value) (hleft : ∀ c ∈ left, isBlank c = true)
    (hright : ∀ c ∈ right, isBlank c = true) (he : expression.toList = left ++ [name] ++ right) :
    presets.Settle expression value := by
  have hread : (Except.ok (Number.text value)).bind (readAnswer name) = .ok value := by
    simp only [Except.bind, Conversion.readAnswer_of_readsAs (readsAs_text value)]
  constructor
  · intro console
    obtain ⟨-, ho, hs⟩ := run_calculate_letter presets.orConsole console hname hleft hright he
    rw [Interview.answer_of_preset hvalue] at ho hs
    exact ⟨by rw [ho, hread], hs⟩
  · obtain ⟨-, ho, -⟩ := run_calculate_letter presets.source () hname hleft hright he
    rw [ho, source_answer_of_preset hvalue, hread]

theorem Bindings.leaveOpen_of_get? (hname : isAlphabetic name = true)
    (hnone : presets.get? name = none) (hleft : ∀ c ∈ left, isBlank c = true)
    (hright : ∀ c ∈ right, isBlank c = true) (he : expression.toList = left ++ [name] ++ right) :
    presets.LeaveOpen expression name := by
  have hsource : presets.source.answer name () = (.error (.undefinedVariable name), ()) := by
    simp only [source, answer, hnone]
  constructor
  · intro console
    rw [← Interview.answer_of_no_preset hnone]
    exact run_calculate_letter presets.orConsole console hname hleft hright he
  · obtain ⟨-, ho, -⟩ := run_calculate_letter presets.source () hname hleft hright he
    rw [ho, hsource]
    rfl

end Alone

/-- The presets of an invocation whose assignments have all been accepted settle every letter that
is assigned to, with the value of the last assignment, and leave all other letters open. -/
theorem presets_settle (texts : List String) (invocation : Invocation)
    (haccepted : Accepts texts invocation.presets) (left right : String)
    (hblank : ∀ c ∈ left.toList ++ right.toList, isBlank c = true) :
    let presets := CommandLine.presets invocation
    let alone (name : Char) := left ++ String.singleton name ++ right
    (∀ earlier text later name value, texts = earlier ++ text :: later →
      Assigns text name value → (∀ other ∈ later, ∀ value, ¬ Assigns other name value) →
        presets.Settle (alone name) value) ∧
    ∀ name, isAlphabetic name = true → (∀ text ∈ texts, ∀ value, ¬ Assigns text name value) →
      presets.LeaveOpen (alone name) name := by
  intro presets alone
  have halone (name : Char) : (alone name).toList = left.toList ++ [name] ++ right.toList := by
    simp [alone]
  have hleft c (hc : c ∈ left.toList) := hblank c (List.mem_append_left _ hc)
  have hright c (hc : c ∈ right.toList) := hblank c (List.mem_append_right _ hc)
  constructor
  · intro earlier text later name value htexts hassigns hlater
    rw [htexts] at haccepted
    obtain ⟨before, preset, behind, hsplit, hpreset, hbehind⟩ := haccepted.exists_split
    obtain rfl : preset = ⟨name, value⟩ := Except.ok.inj (hpreset.symm.trans hassigns)
    have hvalue := get?_presets_of_last hsplit (hbehind.name_ne hlater)
    exact Bindings.settle_of_get? (isAlphabetic_of_read hassigns) hvalue hleft hright (halone name)
  · intro name hname hnone
    have hget : presets.get? name = none := by
      rw [show presets = _ from presets_eq_setAll invocation,
        Bindings.get?_setAll_of_ne (haccepted.name_ne hnone)]
      rfl
    exact Bindings.leaveOpen_of_get? hname hget hleft hright (halone name)

/-- A letter that is assigned to twice, one that is not, and negative zero. -/
theorem presets_settle_assigned_twice :
    let presets := CommandLine.presets
      { Invocation.empty with presets := [⟨'x', 1⟩, ⟨'y', -0.0⟩, ⟨'x', -2.5⟩] }
    presets.Settle " x\n" (-2.5) ∧ presets.Settle " y\n" (-0.0) ∧ presets.LeaveOpen " z\n" 'z' := by
  intro presets
  have hfirst : Assigns "x=1" 'x' 1 := by rw [Assigns]; decide +kernel
  have hsecond : Assigns " y = -0 " 'y' (-0.0) := by rw [Assigns]; decide +kernel
  have hthird : Assigns "x=-2.5" 'x' (-2.5) := by rw [Assigns]; decide +kernel
  have hother {text : String} {name other : Char} {given : Float} (h : Assigns text name given)
      (hne : name ≠ other) (value : Float) : ¬ Assigns text other value := by
    intro hassigns
    exact hne (congrArg Assignment.name (Except.ok.inj (h.symm.trans hassigns)))
  have hblank : ∀ c ∈ " ".toList ++ "\n".toList, isBlank c = true := by simp; decide
  obtain ⟨hsettle, hopen⟩ := presets_settle ["x=1", " y = -0 ", "x=-2.5"]
    { Invocation.empty with presets := [⟨'x', 1⟩, ⟨'y', -0.0⟩, ⟨'x', -2.5⟩] }
    (.cons hfirst (.cons hsecond (.cons hthird .nil))) " " "\n" hblank
  refine ⟨?_, ?_, hopen 'z' (by decide) ?_⟩
  · exact hsettle ["x=1", " y = -0 "] _ [] 'x' (-2.5) rfl hthird nofun
  · exact hsettle ["x=1"] _ _ 'y' (-0.0) rfl hsecond
      (List.forall_mem_singleton.mpr (hother hthird (by decide)))
  · rw [List.forall_mem_cons, List.forall_mem_cons, List.forall_mem_singleton]
    exact ⟨hother hfirst (by decide), hother hsecond (by decide), hother hthird (by decide)⟩

end Calculator
