/-!
# Binary operators

Five operators between two numbers, all grouping to the left. A higher precedence
binds more tightly.
-/
namespace Calculator

inductive Operator where
  | addition
  | subtraction
  | multiplication
  | division
  | exponentiation
deriving DecidableEq, Repr

namespace Operator

def all : List Operator :=
  [addition, subtraction, multiplication, division, exponentiation]

/-- The character that writes an operator. -/
def symbol : Operator → Char
  | addition => '+'
  | subtraction => '-'
  | multiplication => '*'
  | division => '/'
  | exponentiation => '^'

/-- The operator that a text writes. -/
def ofText? (text : List Char) : Option Operator :=
  all.find? fun operator => text = [operator.symbol]

theorem ofText?_eq_some_iff {text : List Char} {operator : Operator} :
    ofText? text = some operator ↔ text = [operator.symbol] := by
  constructor
  · intro found
    simpa using List.find?_some found
  · rintro rfl
    cases operator <;> decide

def precedence : Operator → Nat
  | addition | subtraction => 1
  | multiplication | division => 2
  | exponentiation => 3

/-- The value of an operator between two doubles. -/
def apply : Operator → Float → Float → Float
  | addition, left, right => left + right
  | subtraction, left, right => left - right
  | multiplication, left, right => left * right
  | division, left, right => left / right
  | exponentiation, left, right => Float.pow left right

end Operator

end Calculator
