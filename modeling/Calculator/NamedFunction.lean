/-!
# Named functions

Seven functions of one number, written by name before a parenthesis. Angles are in
radians and `log` is the decimal logarithm.
-/
namespace Calculator

inductive NamedFunction where
  | sine
  | cosine
  | tangent
  | cotangent
  | decimalLogarithm
  | naturalLogarithm
  | squareRoot
deriving DecidableEq, Repr

namespace NamedFunction

def all : List NamedFunction :=
  [sine, cosine, tangent, cotangent, decimalLogarithm, naturalLogarithm, squareRoot]

/-- The letters that write a function. -/
def name : NamedFunction → List Char
  | sine => ['s', 'i', 'n']
  | cosine => ['c', 'o', 's']
  | tangent => ['t', 'a', 'n']
  | cotangent => ['c', 'o', 't']
  | decimalLogarithm => ['l', 'o', 'g']
  | naturalLogarithm => ['l', 'n']
  | squareRoot => ['s', 'q', 'r', 't']

/-- The function that a text names. -/
def ofText? (text : List Char) : Option NamedFunction :=
  all.find? fun function => text = function.name

theorem ofText?_eq_some_iff {text : List Char} {function : NamedFunction} :
    ofText? text = some function ↔ text = function.name := by
  constructor
  · intro found
    simpa using List.find?_some found
  · rintro rfl
    cases function <;> decide

/-- The value of a function at a double. -/
def apply : NamedFunction → Float → Float
  | sine, value => value.sin
  | cosine, value => value.cos
  | tangent, value => value.tan
  | cotangent, value => 1 / value.tan
  | decimalLogarithm, value => value.log10
  | naturalLogarithm, value => value.log
  | squareRoot, value => value.sqrt

end NamedFunction

end Calculator
