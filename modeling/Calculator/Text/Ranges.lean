/-!
# Sets of characters given by ranges

A property of characters is stored as a list of closed ranges of code points in
ascending order. The lookup stops at the first range that ends at or above the
code point, so it never reads further than the answer needs.
-/
namespace Calculator.Text

/-- Closed ranges of code points, ascending and apart from one another. -/
abbrev Ranges := List (Nat × Nat)

/-- Whether a code point lies in one of the ranges. -/
def Ranges.covers (code : Nat) : Ranges → Bool
  | [] => false
  | (first, last) :: rest => if code ≤ last then first ≤ code else covers code rest

end Calculator.Text
