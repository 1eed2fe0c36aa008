import Calculator.Operator
import Calculator.Text.Alphabetic

/-!
# Tokens

An expression is written in four kinds of tokens. The first character decides the
kind: numbers and identifiers are runs of characters of their class, operators and
parentheses stand alone.
-/
namespace Calculator

inductive TokenKind where
  | identifier
  | number
  | operator
  | punctuation
deriving DecidableEq, Repr

namespace TokenKind

def name : TokenKind → String
  | identifier => "identifier"
  | number => "number"
  | operator => "operator"
  | punctuation => "punctuation"

/-- Digits and points, of which numbers consist. -/
def isNumeric (c : Char) : Bool :=
  c.isDigit || c = '.'

def isOperator (c : Char) : Bool :=
  (Operator.ofText? [c]).isSome

def isParenthesis (c : Char) : Bool :=
  c = '(' || c = ')'

/-- The kind of token that begins with a character. -/
def ofFirst? (c : Char) : Option TokenKind :=
  if isNumeric c then some number
  else if Text.isAlphabetic c then some identifier
  else if isOperator c then some operator
  else if isParenthesis c then some punctuation
  else none

/-- The token of this kind at the front of a text. -/
def front : TokenKind → List Char → List Char
  | number, text => text.takeWhile isNumeric
  | identifier, text => text.takeWhile Text.isAlphabetic
  | operator, text | punctuation, text => text.take 1

/-- A token that a character begins is not empty. -/
theorem front_ne_nil {first : Char} {kind : TokenKind} (rest : List Char)
    (begins : ofFirst? first = some kind) : kind.front (first :: rest) ≠ [] := by
  unfold ofFirst? at begins
  split at begins
  · cases begins; simp [front, *]
  split at begins
  · cases begins; simp [front, *]
  split at begins
  · cases begins; simp [front]
  split at begins
  · cases begins; simp [front]
  · cases begins

end TokenKind

/-- A token with the place of its first character, counted in characters. -/
structure Token where
  kind : TokenKind
  content : List Char
  position : Nat
deriving DecidableEq, Repr

end Calculator
