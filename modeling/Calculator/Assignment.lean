import Calculator.Number.Numeral
import Calculator.Text.Alphabetic
import Calculator.Text.Blank

/-!
# Assignments

The text of an assignment is a letter, the first equals sign and a numeral, with blanks
anywhere around these three.
-/
namespace Calculator

structure Assignment where
  name : Char
  value : Float
deriving DecidableEq

/-- Why a text is no assignment. -/
inductive AssignmentError where
  | noEqualsSign (text : List Char)
  | notALetter (name : List Char)
  | notANumber (value : List Char)
deriving DecidableEq, Repr

def AssignmentError.message : AssignmentError → String
  | noEqualsSign text => s!"expected NAME=VALUE, got '{String.ofList text}'"
  | notALetter name => s!"'{String.ofList name}' is not a single-letter variable"
  | notANumber value => s!"'{String.ofList value}' is not a valid number"

namespace Assignment

/-- The text on either side of the first equals sign. -/
def split? (text : List Char) : Option (List Char × List Char) :=
  match text.dropWhile (· ≠ '=') with
  | [] => none
  | _ :: value => some (text.takeWhile (· ≠ '='), value)

/-- The letter that is the whole text. -/
def letter? : List Char → Option Char
  | [name] => if Text.isAlphabetic name then some name else none
  | _ => none

/-- Reads an assignment. The left side is looked at before the right one. -/
def read (text : List Char) : Except AssignmentError Assignment :=
  match split? text with
  | none => .error (.noEqualsSign text)
  | some (left, right) =>
    let left := Text.trim left
    let right := Text.trim right
    match letter? left, Number.read? right with
    | none, _ => .error (.notALetter left)
    | some _, none => .error (.notANumber right)
    | some name, some value => .ok ⟨name, value⟩

end Assignment

end Calculator
