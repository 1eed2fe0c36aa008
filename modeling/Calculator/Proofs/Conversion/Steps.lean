import Calculator.Proofs.Conversion.Doubled

/-!
# The steps of a conversion

A token that is handled without a failure is passed over or gives the yard one mark. Every
row of tokens that is handled is a row of such steps, whatever the source has answered.
What a step preserves, a conversion therefore keeps from its beginning to its end.
-/
namespace Calculator.Conversion

/-- What a conversion does with a token. -/
inductive Step (lexeme : Lexeme) : Conversion → Conversion → Prop
  /-- Behind a name the token is passed over, whatever it is. -/
  | passed (yard : ShuntingYard) : Step lexeme ⟨yard, .behindName⟩ ⟨yard, .leading⟩
  /-- Anywhere else the yard takes a mark of its symbol. -/
  | taken {yard after : ShuntingYard} {place : Place} {symbol : Symbol} {answer : Float}
      (elsewhere : place ≠ .behindName) (reads : lexeme.symbol (place = .leading) = .ok symbol)
      (adds : yard.add (symbol.mark answer) = .ok after) :
      Step lexeme ⟨yard, place⟩ ⟨after, symbol.place⟩

/-- What a conversion does with a row of tokens. -/
inductive Steps : Conversion → List Lexeme → Conversion → Prop
  | nil (conversion : Conversion) : Steps conversion [] conversion
  | cons {conversion next last : Conversion} {lexeme : Lexeme} {lexemes : List Lexeme}
      (step : Step lexeme conversion next) (steps : Steps next lexemes last) :
      Steps conversion (lexeme :: lexemes) last

variable {σ : Type} {source : Source σ} {state : σ} {conversion next last : Conversion}
  {lexeme : Lexeme}

theorem step_of_addLexeme (h : ((conversion.addLexeme lexeme).run source state).outcome = .ok next) :
    Step lexeme conversion next := by
  obtain ⟨yard, place⟩ := conversion
  by_cases hp : place = .behindName
  · subst hp
    cases h
    exact .passed yard
  · rw [addLexeme_of_ne hp, Dialogue.run] at h
    cases hs : lexeme.symbol (place = .leading) with
    | error failure =>
      rw [hs] at h
      cases h
    | ok symbol =>
      rw [hs] at h
      obtain ⟨answer, hadd, hplace⟩ := exists_add_of_addSymbol h
      have hnext : next = ⟨next.yard, symbol.place⟩ := by rw [← hplace]
      rw [hnext]
      exact .taken hp hs hadd

/-- The induction is on the tokens. -/
theorem steps_of_addLexemes {lexemes : List Lexeme} : ∀ {conversion : Conversion} {state : σ},
    ((conversion.addLexemes lexemes).run source state).outcome = .ok last →
    Steps conversion lexemes last := by
  induction lexemes with
  | nil =>
    intro conversion state h
    cases h
    exact .nil _
  | cons lexeme lexemes ih =>
    intro conversion state h
    cases ho : ((conversion.addLexeme lexeme).run source state).outcome with
    | error failure =>
      rw [run_addLexemes_cons_of_error ho] at h
      cases h
    | ok next =>
      rw [run_addLexemes_cons ho] at h
      exact .cons (step_of_addLexeme ho) (ih h)

theorem Steps.split {lexemes more : List Lexeme} (h : Steps conversion (lexemes ++ more) last) :
    ∃ between, Steps conversion lexemes between ∧ Steps between more last := by
  induction lexemes generalizing conversion with
  | nil => exact ⟨conversion, .nil conversion, h⟩
  | cons lexeme lexemes ih =>
    cases h with
    | cons step steps =>
      obtain ⟨between, hfirst, hmore⟩ := ih steps
      exact ⟨between, .cons step hfirst, hmore⟩

theorem Steps.of_singleton (h : Steps conversion [lexeme] last) : Step lexeme conversion last := by
  cases h with
  | cons step steps =>
    cases steps
    exact step

theorem Steps.preserves {invariant : Conversion → Prop}
    (hstep : ∀ lexeme conversion next, invariant conversion → Step lexeme conversion next →
      invariant next) {lexemes : List Lexeme} (h : Steps conversion lexemes last)
    (hfirst : invariant conversion) : invariant last := by
  induction h with
  | nil => exact hfirst
  | cons step _ ih => exact ih (hstep _ _ _ hfirst step)

end Calculator.Conversion
