import Calculator.Conversion
import Calculator.Proofs.Dialogue.Play
import Calculator.Proofs.Grammar.Mark

/-!
# Conversion as reading and yard work

A stream reads as a row of symbols and a reason to stop, whatever the source answers.
A symbol resolves to a mark with a value, and the yard takes the marks in order. The
conversion of a stream plays as the two together.
-/
namespace Calculator

/-- The place behind a symbol. -/
def Symbol.place : Symbol → Place
  | .call _ => .behindName
  | .opening => .leading
  | _ => .inner

/-- The symbols of a stream up to its end, or up to the first token that has none. -/
structure Reading where
  symbols : List Symbol
  ending : Option Failure

def Reading.cons (symbol : Symbol) (reading : Reading) : Reading :=
  { reading with symbols := symbol :: reading.symbols }

/-- What follows a place, in a stream with this ending. -/
def TokenStream.readFrom (place : Place) (ending : Option Failure) : List Lexeme → Reading
  | [] => ⟨[], ending⟩
  | lexeme :: lexemes =>
    if place = .behindName then readFrom .leading ending lexemes
    else
      match lexeme.symbol (place = .leading) with
      | .ok symbol => (readFrom symbol.place ending lexemes).cons symbol
      | .error failure => ⟨[], some failure⟩

def TokenStream.reading (stream : TokenStream) : Reading :=
  readFrom .leading stream.ending stream.lexemes

/-- The value of a variable, as the source answers. -/
def Source.value {σ : Type} (source : Source σ) (name : Char) : Answering σ Float :=
  (Conversion.askValue name).play source

/-- The mark of a symbol, with the value of its operand. -/
def Symbol.resolve {σ : Type} (source : Source σ) : Symbol → Answering σ (Mark Value)
  | .number value => pure (.operand (.literal value))
  | .letter name => (fun value => .operand (.answered value)) <$> source.value name
  | .call function => pure (.call function)
  | .sign => pure .sign
  | .operation operator => pure (.operation operator)
  | .opening => pure .opening
  | .closing => pure .closing

/-- The mark of a symbol, with the value that answers a variable. -/
def Symbol.mark (answer : Float) : Symbol → Mark Value
  | number value => .operand (.literal value)
  | letter _ => .operand (.answered answer)
  | call function => .call function
  | sign => .sign
  | operation operator => .operation operator
  | opening => .opening
  | closing => .closing

namespace ShuntingYard

/-- The yard after a mark. -/
def add (yard : ShuntingYard) : Mark Value → Except Failure ShuntingYard
  | .operand (.literal value) => .ok (yard.addNumber value)
  | .operand (.answered value) => .ok (yard.addVariable value)
  | .call function => .ok (yard.openCall function)
  | .sign => .ok yard.addSign
  | .operation operator => .ok (yard.addOperator operator)
  | .opening => .ok yard.openGroup
  | .closing => yard.closeGroup

def addAll (yard : ShuntingYard) (marks : List (Mark Value)) : Except Failure ShuntingYard :=
  marks.foldlM add yard

/-- The yard after some symbols, each resolved when its turn comes. -/
def take {σ : Type} (source : Source σ) (yard : ShuntingYard) :
    List Symbol → Answering σ ShuntingYard
  | [] => pure yard
  | symbol :: symbols => do
    let mark ← symbol.resolve source
    let yard ← Answering.ofOutcome (yard.add mark)
    yard.take source symbols

/-- The end of the yard, or the reason why it is not reached. -/
def conclude (yard : ShuntingYard) (ending : Option Failure) : Except Failure (List Node) :=
  match ending with
  | some failure => .error failure
  | none => yard.finish

end ShuntingYard

namespace Conversion

variable {σ : Type}

theorem play_addSymbol (source : Source σ) (yard : ShuntingYard) (symbol : Symbol) :
    (addSymbol yard symbol).play source = (do
      let mark ← symbol.resolve source
      let yard ← Answering.ofOutcome (yard.add mark)
      return ⟨yard, symbol.place⟩) := by
  cases symbol with
  | number value => rfl
  | letter name =>
    rw [addSymbol, Dialogue.play_bind, Symbol.resolve, bind_map_left]
    rfl
  | call function => rfl
  | sign => rfl
  | operation operator => rfl
  | opening => rfl
  | closing =>
    have hadd : yard.add .closing = yard.closeGroup := rfl
    rw [addSymbol, Dialogue.play_done, Symbol.resolve, pure_bind, hadd]
    cases yard.closeGroup <;> rfl

theorem play_finish (source : Source σ) (conversion : Conversion) (ending : Option Failure) :
    (conversion.finish ending).play source =
      Answering.ofOutcome (conversion.yard.conclude ending) := by
  cases ending with
  | some failure => rfl
  | none =>
    rw [finish, ShuntingYard.conclude]
    cases conversion.yard.finish <;> rfl

theorem addLexeme_behindName {conversion : Conversion} (h : conversion.place = .behindName)
    (lexeme : Lexeme) : addLexeme conversion lexeme =
      .note (.scanned lexeme.token) (pure ⟨conversion.yard, .leading⟩) := by
  rw [addLexeme, h]

theorem addLexeme_of_ne {conversion : Conversion} (h : conversion.place ≠ .behindName)
    (lexeme : Lexeme) : addLexeme conversion lexeme =
      .note (.scanned lexeme.token) (match lexeme.symbol (conversion.place = .leading) with
        | .ok symbol => addSymbol conversion.yard symbol
        | .error failure => .done (.error failure)) := by
  rw [addLexeme]
  cases hp : conversion.place with
  | behindName => exact absurd hp h
  | leading => rfl
  | inner => rfl

/-- The induction is on the tokens; a token behind a name is passed over. -/
theorem play_addLexemes (source : Source σ) (ending : Option Failure) (lexemes : List Lexeme) :
    ∀ conversion : Conversion,
      (conversion.addLexemes lexemes >>= fun after => after.finish ending).play source = (do
        let reading := TokenStream.readFrom conversion.place ending lexemes
        let yard ← conversion.yard.take source reading.symbols
        Answering.ofOutcome (yard.conclude reading.ending)) := by
  induction lexemes with
  | nil =>
    intro conversion
    exact play_finish source conversion ending
  | cons lexeme lexemes ih =>
    intro conversion
    rw [addLexemes, List.foldlM_cons, bind_assoc, Dialogue.play_bind]
    change ((addLexeme conversion lexeme).play source >>= fun after =>
      (after.addLexemes lexemes >>= fun last => last.finish ending).play source) = _
    simp only [ih]
    rw [TokenStream.readFrom]
    by_cases hp : conversion.place = .behindName
    · rw [addLexeme_behindName hp, if_pos hp]
      rfl
    · rw [addLexeme_of_ne hp, if_neg hp, Dialogue.play_note]
      cases lexeme.symbol (decide (conversion.place = .leading)) with
      | error failure => rfl
      | ok symbol =>
        dsimp only [Reading.cons]
        rw [play_addSymbol, ShuntingYard.take]
        simp only [bind_assoc, pure_bind]

end Conversion

/-- A conversion plays as its reading and the work of the yard. -/
theorem TokenStream.play_convert {σ : Type} (source : Source σ) (stream : TokenStream) :
    stream.convert.play source = (do
      let yard ← ShuntingYard.empty.take source stream.reading.symbols
      Answering.ofOutcome (yard.conclude stream.reading.ending)) :=
  Conversion.play_addLexemes source stream.ending stream.lexemes Conversion.start

end Calculator
