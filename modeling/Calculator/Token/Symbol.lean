import Calculator.Number.Numeral
import Calculator.Token.Stream

/-!
# Symbols

What a token stands for. A minus is a sign at the beginning and right behind an
opening parenthesis, and subtraction elsewhere. A single letter is a variable, also if
it begins a function's name; a longer run of letters has to be a function whose
parenthesis follows immediately.
-/
namespace Calculator

inductive Symbol where
  | number (value : Float)
  | letter (name : Char)
  | call (function : NamedFunction)
  | sign
  | operation (operator : Operator)
  | opening
  | closing
deriving DecidableEq

/-- The symbol of an operator token. A text that writes no operator fails with its first
character, or with NUL if it is empty. -/
def Token.operatorSymbol (token : Token) (leading : Bool) : Except Failure Symbol :=
  if leading && token.content = [Operator.subtraction.symbol] then .ok .sign
  else
    match Operator.ofText? token.content with
    | some operator => .ok (.operation operator)
    | none => .error (.invalidCharacter (token.content.headD '\x00') token.position)

/-- The symbol of an identifier token. -/
def Lexeme.identifierSymbol (lexeme : Lexeme) : Except Failure Symbol :=
  match lexeme.token.content with
  | [name] => .ok (.letter name)
  | name =>
    match lexeme.opens, NamedFunction.ofText? name with
    | true, some function => .ok (.call function)
    | _, _ => .error (.unknownIdentifier name)

/-- The symbol of a token; `leading` tells that a minus is a sign here. -/
def Lexeme.symbol (lexeme : Lexeme) (leading : Bool) : Except Failure Symbol :=
  match lexeme.token.kind with
  | .number =>
    match Number.read? lexeme.token.content with
    | some value => .ok (.number value)
    | none => .error (.invalidNumber lexeme.token.content)
  | .identifier => lexeme.identifierSymbol
  | .operator => lexeme.token.operatorSymbol leading
  | .punctuation => .ok (if lexeme.token.content = ['('] then .opening else .closing)

end Calculator
