/-!
# Sets of characters given by the code points where membership changes

A property of characters that a standard lists as ranges is kept as the increasing array of the
code points at which the property begins or ends to hold. A character has the property when an odd
number of these changes lie at or below it; the number is found by bisection.
-/

namespace Wireframe.Text

/-- The code points at which membership changes, in increasing order; the first one is the first
member. -/
structure Ranges where
  changes : Array Nat

namespace Ranges

/-- The number of changes at or below `n`, searched for between `lo` and `hi`. -/
def countFrom (r : Ranges) (n lo hi : Nat) : Nat :=
  if h : lo < hi then
    let mid := (lo + hi) / 2
    if r.changes.getD mid 0 ≤ n then countFrom r n (mid + 1) hi else countFrom r n lo mid
  else lo
termination_by hi - lo

/-- Whether a character is a member. -/
def contains (r : Ranges) (c : Char) : Bool :=
  r.countFrom c.toNat 0 r.changes.size % 2 == 1

end Ranges

end Wireframe.Text
