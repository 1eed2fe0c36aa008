import Calculator.Postfix

/-!
# Failures

Why an expression has no value, and the message that tells it.
-/
namespace Calculator

inductive Failure where
  /-- A character that begins no token, with its place in the text. -/
  | invalidCharacter (character : Char) (position : Nat)
  /-- A run of digits and points that is no numeral. -/
  | invalidNumber (text : List Char)
  /-- Letters that are neither a variable nor a function with its parenthesis. -/
  | unknownIdentifier (name : List Char)
  /-- An opening parenthesis that is never closed. -/
  | unclosedParenthesis
  /-- A closing parenthesis that nothing opened. -/
  | unopenedParenthesis
  /-- An answer for a variable that is no numeral. -/
  | invalidVariableInput (name : Char) (answer : List Char)
  /-- A variable without a value. -/
  | undefinedVariable (name : Char)
  /-- A node with fewer numbers before it than it takes. -/
  | missingOperand (node : Node)
  /-- A postfix expression that leaves no number, or several. -/
  | resultCount (count : Nat)
  /-- An answer that could not be read. -/
  | unreadableInput (reason : String)
deriving DecidableEq

namespace Failure

def message : Failure → String
  | invalidCharacter character position =>
    s!"invalid character, '{character}', encountered at position {position}"
  | invalidNumber text => s!"'{String.ofList text}' is not a valid number"
  | unknownIdentifier name => s!"'{String.ofList name}' is not a known function"
  | unclosedParenthesis => "could not find a match for '('"
  | unopenedParenthesis => "could not find a match for ')'"
  | invalidVariableInput name answer =>
    s!"'{String.ofList answer}' is not a valid value for '{name}'"
  | undefinedVariable name => s!"variable, '{name}', is not defined"
  | missingOperand node => s!"'{node.text}' is missing an operand"
  | resultCount count => s!"expression left {count} values instead of one"
  | unreadableInput reason => s!"could not read input: {reason}"

end Failure

end Calculator
