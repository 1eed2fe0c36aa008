import Calculator.Proofs.Conversion.Reading
import Calculator.Proofs.Token.Scanning

/-!
# Conversion run by run

The rest of a conversion before a row of runs. Each lemma below takes one run off the
row: a blank changes the place in the text only, and any other run contributes its
symbol, or ends the conversion with the reason why it has none.
-/
namespace Calculator

open Text TokenKind

/-- The reading of a row of runs that stands at a place of an expression. -/
def readRuns (place : Place) (position : Nat) (row : List (List Char)) : Reading :=
  let stream := TokenStream.ofRuns position row
  TokenStream.readFrom place stream.ending stream.lexemes

/-- What a yard makes of a reading. -/
def Reading.playFrom {σ : Type} (source : Source σ) (yard : ShuntingYard) (reading : Reading) :
    Answering σ (List Node) := do
  let after ← yard.take source reading.symbols
  Answering.ofOutcome (after.conclude reading.ending)

theorem play_convert_eq {σ : Type} (source : Source σ) (text : String) :
    (convert text).play source =
      (readRuns .leading 0 (runs text.toList)).playFrom source .empty := by
  rw [convert, TokenStream.play_convert, TokenStream.ofString_eq_ofRuns]
  rfl

variable {first : Char} {others : List Char} {behind : List (List Char)} {position : Nat}

theorem readRuns_blank (hb : isBlank first = true) (place : Place) :
    readRuns place position ([first] :: behind) = readRuns place (position + 1) behind := by
  rw [readRuns, TokenStream.ofRuns, if_pos hb]
  rfl

theorem readRuns_illegal (hb : isBlank first = false) (hf : ofFirst? first = none) (place : Place) :
    readRuns place position ((first :: others) :: behind) =
      ⟨[], some (.invalidCharacter first position)⟩ := by
  rw [readRuns, TokenStream.ofRuns, if_neg (by rw [hb]; exact Bool.false_ne_true), hf]
  rfl

/-- The token of a run, before the runs behind it. -/
def runLexeme (kind : TokenKind) (run : List Char) (position : Nat) (behind : List (List Char)) :
    Lexeme :=
  ⟨⟨kind, run, position⟩, behind.head? = some ['(']⟩

theorem readRuns_behindName (hb : isBlank first = false) {kind : TokenKind}
    (hf : ofFirst? first = some kind) :
    readRuns .behindName position ((first :: others) :: behind) =
      readRuns .leading (position + (first :: others).length) behind := by
  rw [readRuns, TokenStream.ofRuns, if_neg (by rw [hb]; exact Bool.false_ne_true), hf]
  rfl

theorem readRuns_symbol (hb : isBlank first = false) {kind : TokenKind}
    (hf : ofFirst? first = some kind) {place : Place} (hp : place ≠ .behindName) {symbol : Symbol}
    (hs : (runLexeme kind (first :: others) position behind).symbol (place = .leading) =
      .ok symbol) :
    readRuns place position ((first :: others) :: behind) =
      (readRuns symbol.place (position + (first :: others).length) behind).cons symbol := by
  rw [readRuns, TokenStream.ofRuns, if_neg (by rw [hb]; exact Bool.false_ne_true), hf]
  dsimp only [TokenStream.cons]
  rw [TokenStream.readFrom, if_neg hp]
  rw [runLexeme] at hs
  rw [hs]
  rfl

theorem readRuns_failure (hb : isBlank first = false) {kind : TokenKind}
    (hf : ofFirst? first = some kind) {place : Place} (hp : place ≠ .behindName) {failure : Failure}
    (hs : (runLexeme kind (first :: others) position behind).symbol (place = .leading) =
      .error failure) :
    readRuns place position ((first :: others) :: behind) = ⟨[], some failure⟩ := by
  rw [readRuns, TokenStream.ofRuns, if_neg (by rw [hb]; exact Bool.false_ne_true), hf]
  dsimp only [TokenStream.cons]
  rw [TokenStream.readFrom, if_neg hp]
  rw [runLexeme] at hs
  rw [hs]

/-! ## The symbol of a run -/

section Symbols

variable (leading : Bool)

theorem symbol_number {run : List Char} {value : Float} (h : Number.read? run = some value) :
    (runLexeme .number run position behind).symbol leading = .ok (.number value) := by
  simp only [Lexeme.symbol, runLexeme, h]

theorem symbol_number_failure {run : List Char} (h : Number.read? run = none) :
    (runLexeme .number run position behind).symbol leading = .error (.invalidNumber run) := by
  simp only [Lexeme.symbol, runLexeme, h]

theorem symbol_letter (name : Char) :
    (runLexeme .identifier [name] position behind).symbol leading = .ok (.letter name) := rfl

/-- Letters that are no variable are a name, with or without its parenthesis. -/
theorem identifierSymbol_of_name {run : List Char} (hl : ∀ c, run ≠ [c]) :
    (runLexeme .identifier run position behind).identifierSymbol =
      match decide (behind.head? = some ['(']), NamedFunction.ofText? run with
      | true, some function => .ok (.call function)
      | _, _ => .error (.unknownIdentifier run) := by
  rcases run with _ | ⟨c, _ | ⟨d, rest⟩⟩
  · rfl
  · exact absurd rfl (hl c)
  · rfl

theorem name_ne_singleton (function : NamedFunction) (c : Char) : function.name ≠ [c] := by
  intro hc
  cases function <;> cases hc

theorem symbol_call {function : NamedFunction} (h : behind.head? = some ['(']) :
    (runLexeme .identifier function.name position behind).symbol leading =
      .ok (.call function) := by
  change (runLexeme .identifier function.name position behind).identifierSymbol = _
  rw [identifierSymbol_of_name (name_ne_singleton function), h,
    NamedFunction.ofText?_eq_some_iff.mpr rfl]
  rfl

theorem symbol_name_failure {run : List Char} (hl : ∀ c, run ≠ [c])
    (h : ¬ ((∃ function : NamedFunction, run = function.name) ∧ behind.head? = some ['('])) :
    (runLexeme .identifier run position behind).symbol leading =
      .error (.unknownIdentifier run) := by
  change (runLexeme .identifier run position behind).identifierSymbol = _
  rw [identifierSymbol_of_name hl]
  cases ho : decide (behind.head? = some ['(']) with
  | false => rfl
  | true =>
    cases hf : NamedFunction.ofText? run with
    | none => rfl
    | some function =>
      exact absurd ⟨⟨function, NamedFunction.ofText?_eq_some_iff.mp hf⟩, of_decide_eq_true ho⟩ h

theorem symbol_sign :
    (runLexeme .operator ['-'] position behind).symbol true = .ok .sign := rfl

theorem symbol_operation {operator : Operator} (h : leading = false ∨ operator ≠ .subtraction) :
    (runLexeme .operator [operator.symbol] position behind).symbol leading =
      .ok (.operation operator) := by
  have hf : Operator.ofText? [operator.symbol] = some operator :=
    Operator.ofText?_eq_some_iff.mpr rfl
  have hm : ¬ (leading && [operator.symbol] = [Operator.subtraction.symbol]) = true := by
    rcases h with rfl | h
    · simp
    · cases operator <;> first | exact absurd rfl h | simp [Operator.symbol]
  change (Token.mk .operator [operator.symbol] position).operatorSymbol leading = _
  rw [Token.operatorSymbol, if_neg hm, hf]

theorem symbol_opening :
    (runLexeme .punctuation ['('] position behind).symbol leading = .ok .opening := rfl

theorem symbol_closing :
    (runLexeme .punctuation [')'] position behind).symbol leading = .ok .closing := rfl

end Symbols

end Calculator
