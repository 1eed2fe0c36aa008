/-!
# Lines of input

Input is read line by line, each with its line feed. Whether a line is text is known
only when it is read: its bytes may not be UTF-8.
-/
namespace Calculator

/-- One line of input, with its line feed if it has one. -/
inductive InputLine where
  | text (line : String)
  /-- A line whose bytes are not UTF-8. -/
  | undecodable
deriving DecidableEq, Repr

namespace InputLine

/-- Cuts bytes behind every line feed. -/
def split (bytes : List UInt8) : List (List UInt8) :=
  match bytes with
  | [] => []
  | first :: others =>
    if first = 10 then [first] :: split others
    else
      match _remaining : others.dropWhile (· ≠ 10) with
      | [] => [first :: others]
      | feed :: rest => (first :: others.takeWhile (· ≠ 10) ++ [feed]) :: split rest
termination_by bytes.length
decreasing_by
  · simp
  · have bound := (List.dropWhile_sublist (l := others) (· ≠ 10)).length_le
    rw [_remaining] at bound
    simp only [List.length_cons] at bound ⊢
    omega

/-- The line that some bytes make up. -/
def ofBytes (bytes : List UInt8) : InputLine :=
  match String.fromUTF8? (ByteArray.mk bytes.toArray) with
  | some line => text line
  | none => undecodable

/-- The lines of an input. -/
def all (input : ByteArray) : List InputLine :=
  (split input.data.toList).map ofBytes

end InputLine

end Calculator
