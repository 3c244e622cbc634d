/-!
# Sets of code points

A set of code points is a list of ranges in ascending order.

## Main definitions

* `Text.inRanges` — membership
-/

namespace StatusBoard.Text

/-- Membership in a list of ranges in ascending order, both ends included. -/
def inRanges (code : Nat) : List (Nat × Nat) → Bool
  | [] => false
  | (first, last) :: rest =>
    if code < first then false else if code ≤ last then true else inRanges code rest

end StatusBoard.Text
