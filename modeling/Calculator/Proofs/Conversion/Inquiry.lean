import Calculator.Calculation
import Calculator.Proofs.Conversion.RunByRun
import Calculator.Proofs.Dialogue.Questions

/-!
# What a conversion asks

Without its notes a conversion is the work of the yard on the symbols that are read, with
one question for each variable at the moment when its turn comes. This holds before any
source answers, so it tells the questions of failing conversions as well.
-/
namespace Calculator

/-- The mark of a symbol, with the question that it takes. -/
def Symbol.inquire : Symbol → Dialogue (Mark Value)
  | .number value => pure (.operand (.literal value))
  | .letter name =>
    (fun value => .operand (.answered value)) <$> (Conversion.askValue name).unnoted
  | .call function => pure (.call function)
  | .sign => pure .sign
  | .operation operator => pure (.operation operator)
  | .opening => pure .opening
  | .closing => pure .closing

/-- The yard after some symbols, with the questions that they take. -/
def ShuntingYard.inquire (yard : ShuntingYard) : List Symbol → Dialogue ShuntingYard
  | [] => pure yard
  | symbol :: symbols => do
    let mark ← symbol.inquire
    let yard ← .done (yard.add mark)
    yard.inquire symbols

variable {σ β : Type}

theorem Symbol.play_inquire (source : Source σ) (symbol : Symbol) :
    symbol.inquire.play source = symbol.resolve source := by
  cases symbol with
  | letter name =>
    rw [inquire, resolve, map_eq_pure_bind, map_eq_pure_bind, Dialogue.play_bind,
      Dialogue.play_unnoted]
    rfl
  | _ => rfl

theorem ShuntingYard.play_inquire (source : Source σ) (symbols : List Symbol) :
    ∀ yard : ShuntingYard, (yard.inquire symbols).play source = yard.take source symbols := by
  induction symbols with
  | nil => exact fun _ => rfl
  | cons symbol symbols ih =>
    intro yard
    rw [inquire, take, Dialogue.play_bind, Symbol.play_inquire]
    congr 1
    funext mark
    rw [Dialogue.play_bind, Dialogue.play_done]
    congr 1
    funext next
    exact ih next

theorem Conversion.unnoted_addSymbol (yard : ShuntingYard) (symbol : Symbol) :
    (addSymbol yard symbol).unnoted = (do
      let mark ← symbol.inquire
      let yard ← .done (yard.add mark)
      return ⟨yard, symbol.place⟩) := by
  cases symbol with
  | letter name =>
    rw [addSymbol, Dialogue.unnoted_bind, Symbol.inquire, bind_map_left]
    rfl
  | closing =>
    have hadd : yard.add .closing = yard.closeGroup := rfl
    rw [addSymbol, Symbol.inquire, pure_bind, hadd]
    cases yard.closeGroup <;> rfl
  | _ => rfl

/-- The rest of a conversion, up to an end that looks at the yard only. The induction is on the
tokens; a token behind a name is passed over. -/
theorem Conversion.unnoted_addLexemes {last : Option Failure → ShuntingYard → Dialogue β}
    (hlast : ∀ failure yard, last (some failure) yard = .done (.error failure))
    (ending : Option Failure) (lexemes : List Lexeme) : ∀ conversion : Conversion,
      (conversion.addLexemes lexemes >>= fun after => last ending after.yard).unnoted = (do
        let reading := TokenStream.readFrom conversion.place ending lexemes
        let yard ← conversion.yard.inquire reading.symbols
        (last reading.ending yard).unnoted) := by
  induction lexemes with
  | nil => exact fun _ => rfl
  | cons lexeme lexemes ih =>
    intro conversion
    rw [addLexemes, List.foldlM_cons, bind_assoc, Dialogue.unnoted_bind]
    change ((addLexeme conversion lexeme).unnoted >>= fun after =>
      (after.addLexemes lexemes >>= fun final => last ending final.yard).unnoted) = _
    simp only [ih]
    rw [TokenStream.readFrom]
    by_cases hp : conversion.place = .behindName
    · rw [addLexeme_behindName hp, if_pos hp]
      rfl
    · rw [addLexeme_of_ne hp, if_neg hp, Dialogue.unnoted]
      cases lexeme.symbol (decide (conversion.place = .leading)) with
      | error failure =>
        change _ = (last (some failure) conversion.yard).unnoted
        rw [hlast]
        rfl
      | ok symbol =>
        dsimp only [Reading.cons]
        rw [unnoted_addSymbol, ShuntingYard.inquire]
        simp only [bind_assoc, pure_bind]

/-- What a yard makes of a reading, with the questions that it takes. -/
def Reading.inquireFrom (yard : ShuntingYard) (reading : Reading) : Dialogue (List Node) := do
  let after ← yard.inquire reading.symbols
  .done (after.conclude reading.ending)

theorem Conversion.unnoted_finish (conversion : Conversion) (ending : Option Failure) :
    (conversion.finish ending).unnoted = .done (conversion.yard.conclude ending) := by
  cases ending with
  | some failure => rfl
  | none =>
    rw [finish, ShuntingYard.conclude]
    cases conversion.yard.finish <;> rfl

/-- Whatever scanner delivers the tokens, a conversion is the work of the yard on their reading. -/
theorem TokenStream.unnoted_convert (stream : TokenStream) :
    stream.convert.unnoted = stream.reading.inquireFrom .empty := by
  let last (ending : Option Failure) (yard : ShuntingYard) :=
    Conversion.finish ⟨yard, .inner⟩ ending
  have hlast : ∀ failure yard, last (some failure) yard = .done (.error failure) := fun _ _ => rfl
  refine (Conversion.unnoted_addLexemes hlast _ _ .start).trans ?_
  change ShuntingYard.inquire _ stream.reading.symbols >>= _ = _
  rw [Reading.inquireFrom]
  congr 1
  funext yard
  exact Conversion.unnoted_finish _ _

theorem unnoted_convert (text : String) :
    (convert text).unnoted = (readRuns .leading 0 (runs text.toList)).inquireFrom .empty := by
  rw [convert, TokenStream.unnoted_convert, TokenStream.ofString_eq_ofRuns]
  rfl

/-- A calculation asks what the conversion asks, and evaluates what comes of it. -/
theorem unnoted_calculate (text : String) :
    (calculate text).unnoted = (convert text).unnoted >>= fun nodes => .done (evaluate nodes) := by
  rw [calculate, Dialogue.unnoted_bind]
  congr 1
  funext nodes
  cases evaluate nodes <;> rfl

end Calculator
