import Calculator.Proofs.Conversion.Replacement
import Calculator.Proofs.Conversion.Transcript
import Calculator.Proofs.Dialogue.Values

/-!
# Conversions use values

A conversion asks for the variables of its text only, and of an answer nothing gets into
it but the value. A calculation takes the same course as another one of the same text
as soon as their conversions do.
-/
namespace Calculator

/-- The letters that stand alone in a text. -/
def variablesOf (text : String) : List Char :=
  lettersOf ((TokenStream.ofString text).lexemes.map Lexeme.token)

namespace Conversion

variable {letters : Char → Prop}

theorem readAnswer_of_readsAs {answer : String} {value : Float} (h : ReadsAs answer value)
    (name : Char) : readAnswer name answer = .ok value := by
  rw [ReadsAs] at h
  simp only [readAnswer, h]

theorem outcome_askValue {σ : Type} (source : Source σ) (state : σ) (name : Char) :
    ((askValue name).run source state).outcome =
      (source.answer name state).1.bind (readAnswer name) := by
  rw [askValue, Dialogue.run_ask]
  rcases source.answer name state with ⟨failure | answer, after⟩
  · rfl
  · dsimp only [Except.bind]
    cases readAnswer name answer <;> rfl

/-- The dialogue asks for the values of these letters and for nothing else. -/
inductive Inquires (letters : Char → Prop) {α : Type} : Dialogue α → Prop
  | done (outcome : Except Failure α) : Inquires letters (.done outcome)
  | note (record : Record) {next : Dialogue α} (h : Inquires letters next) :
      Inquires letters (.note record next)
  | letter {name : Char} {next : Float → Dialogue α} (h : letters name)
      (hnext : ∀ value, Inquires letters (next value)) : Inquires letters (askValue name >>= next)

namespace Inquires

variable {α β : Type}

theorem bind {dialogue : Dialogue α} {next : α → Dialogue β} (h : Inquires letters dialogue)
    (hnext : ∀ value, Inquires letters (next value)) : Inquires letters (dialogue >>= next) := by
  induction h with
  | done outcome =>
    cases outcome with
    | ok value => exact hnext value
    | error failure => exact .done (.error failure)
  | note record _ ih => exact .note record ih
  | letter hname _ ih =>
    rw [bind_assoc]
    exact .letter hname ih

theorem addSymbol (yard : ShuntingYard) {symbol : Symbol}
    (h : ∀ name, symbol.letter? = some name → letters name) :
    Inquires letters (Conversion.addSymbol yard symbol) := by
  cases symbol with
  | letter name => exact .letter (h name rfl) fun _ => .done _
  | _ => exact .done _

theorem addLexeme (conversion : Conversion) {lexeme : Lexeme}
    (h : ∀ name, lexeme.token.letter? = some name → letters name) :
    Inquires letters (conversion.addLexeme lexeme) := by
  by_cases hp : conversion.place = .behindName
  · rw [addLexeme_behindName hp]
    exact .note _ (.done _)
  · rw [addLexeme_of_ne hp]
    refine .note _ ?_
    cases hs : lexeme.symbol (decide (conversion.place = .leading)) with
    | error failure => exact .done _
    | ok symbol =>
      refine addSymbol _ ?_
      rw [Lexeme.letter?_of_symbol hs]
      exact h

theorem addLexemes {lexemes : List Lexeme}
    (h : ∀ name ∈ lettersOf (lexemes.map Lexeme.token), letters name) (conversion : Conversion) :
    Inquires letters (conversion.addLexemes lexemes) := by
  induction lexemes generalizing conversion with
  | nil => exact .done _
  | cons lexeme lexemes ih =>
    rw [List.map_cons, lettersOf] at h
    rw [addLexemes_cons]
    refine (addLexeme conversion fun name hname => ?_).bind fun next => ?_
    · exact h name (List.mem_filterMap.mpr ⟨_, List.mem_cons_self, hname⟩)
    · refine ih (fun name hname => h name ?_) next
      obtain ⟨token, hm, ht⟩ := List.mem_filterMap.mp hname
      exact List.mem_filterMap.mpr ⟨token, List.mem_cons_of_mem _ hm, ht⟩

theorem finish (conversion : Conversion) (ending : Option Failure) :
    Inquires letters (conversion.finish ending) := by
  cases ending with
  | some failure => exact .done _
  | none =>
    rw [Conversion.finish]
    cases conversion.yard.finish with
    | error failure => exact .done _
    | ok nodes => exact .note _ (.done _)

end Inquires

end Conversion

theorem inquires_convert (text : String) :
    Conversion.Inquires (· ∈ variablesOf text) (convert text) := by
  rw [convert, TokenStream.convert]
  exact (Conversion.Inquires.addLexemes (fun _ hname => hname) _).bind fun conversion =>
    .finish conversion _

/-- Of the answers to such questions nothing is used but their values. -/
theorem Conversion.Inquires.asksValues {α : Type} {letters : Char → Prop} {dialogue : Dialogue α}
    (h : Inquires letters dialogue) : dialogue.AsksValues letters := by
  induction h with
  | done outcome => trivial
  | note record _ ih => exact ih
  | @letter name next hname _ ih =>
    refine Dialogue.AsksValues.bind ⟨hname, fun answer other value ha ho => ?_, fun answer => ?_⟩ ih
    · dsimp only
      rw [readAnswer_of_readsAs ha, readAnswer_of_readsAs ho]
    · dsimp only
      cases readAnswer name answer <;> trivial

theorem asksValues_convert (text : String) :
    (convert text).AsksValues (· ∈ variablesOf text) :=
  (inquires_convert text).asksValues

/-! ## From conversions to calculations -/

variable {σ τ : Type} {source : Source σ} {state : σ} {other : Source τ} {otherState : τ}
  {text : String}

theorem state_calculate (source : Source σ) (state : σ) (text : String) :
    ((calculate text).run source state).state = ((convert text).run source state).state := by
  rw [calculate, Dialogue.run_bind]
  cases ho : ((convert text).run source state).outcome with
  | error failure => rw [Run.andThen_of_error ho]
  | ok nodes =>
    rw [Run.andThen_of_ok ho]
    dsimp only
    cases evaluate nodes <;> rfl

theorem SameCourse.calculation
    (h : SameCourse ((convert text).run source state) ((convert text).run other otherState)) :
    SameCourse ((calculate text).run source state) ((calculate text).run other otherState) := by
  have houtcome : ((calculate text).run source state).outcome =
      ((calculate text).run other otherState).outcome := by
    rw [run_calculate_outcome, run_calculate_outcome, h.outcome]
  exact ⟨by rw [events_calculate, events_calculate, h.events, houtcome], houtcome⟩

end Calculator
