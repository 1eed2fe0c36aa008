import Calculator.Dialogue
import Calculator.ShuntingYard
import Calculator.Token.Symbol

/-!
# Conversion into postfix order

Tokens are handled one by one, each to its end before the next is read: its record is
noted, a variable is asked for, and the yard takes its symbol. The conversion of a row
of tokens is the conversion of its parts one after the other.
-/
namespace Calculator

/-- Where the next token stands. -/
inductive Place where
  /-- At the beginning or right behind an opening parenthesis: a minus is a sign. -/
  | leading
  /-- Behind anything else. -/
  | inner
  /-- Behind the name of a function, where the parenthesis is already accounted for. -/
  | behindName
deriving DecidableEq, Repr

/-- A conversion between two tokens. -/
structure Conversion where
  yard : ShuntingYard
  place : Place
deriving DecidableEq

namespace Conversion

def start : Conversion :=
  ⟨.empty, .leading⟩

/-- The value that an answer gives a variable. -/
def readAnswer (name : Char) (answer : String) : Except Failure Float :=
  let text := Text.trim answer.toList
  match Number.read? text with
  | some value => .ok value
  | none => .error (.invalidVariableInput name text)

/-- Asks for a variable and notes its value. -/
def askValue (name : Char) : Dialogue Float :=
  .ask name fun answer =>
    match readAnswer name answer with
    | .ok value => .note (.assigned name value) (pure value)
    | .error failure => .done (.error failure)

/-- The conversion after a symbol. -/
def addSymbol (yard : ShuntingYard) : Symbol → Dialogue Conversion
  | .number value => pure ⟨yard.addNumber value, .inner⟩
  | .letter name => do return ⟨yard.addVariable (← askValue name), .inner⟩
  | .call function => pure ⟨yard.openCall function, .behindName⟩
  | .sign => pure ⟨yard.addSign, .inner⟩
  | .operation operator => pure ⟨yard.addOperator operator, .inner⟩
  | .opening => pure ⟨yard.openGroup, .leading⟩
  | .closing => .done (yard.closeGroup.map fun yard => ⟨yard, .inner⟩)

/-- The conversion after a token that has just been read. The token behind a function's name is
passed over. -/
def addLexeme (conversion : Conversion) (lexeme : Lexeme) : Dialogue Conversion :=
  .note (.scanned lexeme.token) <|
    match conversion.place with
    | .behindName => pure ⟨conversion.yard, .leading⟩
    | place =>
      match lexeme.symbol (place = .leading) with
      | .ok symbol => addSymbol conversion.yard symbol
      | .error failure => .done (.error failure)

/-- The conversion after a row of tokens. -/
def addLexemes (conversion : Conversion) (lexemes : List Lexeme) : Dialogue Conversion :=
  lexemes.foldlM addLexeme conversion

/-- The postfix order, when the tokens have come to their end. -/
def finish (conversion : Conversion) (ending : Option Failure) : Dialogue (List Node) :=
  match ending with
  | some failure => .done (.error failure)
  | none =>
    match conversion.yard.finish with
    | .ok nodes => .note (.converted nodes) (pure nodes)
    | .error failure => .done (.error failure)

end Conversion

/-- The conversion of a stream of tokens into postfix order. -/
def TokenStream.convert (stream : TokenStream) : Dialogue (List Node) := do
  let conversion ← Conversion.start.addLexemes stream.lexemes
  conversion.finish stream.ending

/-- The conversion of an expression into postfix order. -/
def convert (expression : String) : Dialogue (List Node) :=
  (TokenStream.ofString expression).convert

end Calculator
