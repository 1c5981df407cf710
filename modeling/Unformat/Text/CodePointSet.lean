/-!
# Sets of code points

A set is kept as the increasing sequence of the code points at which membership changes, so that a
code point belongs to it exactly when an odd number of changes lie at or below it. A bisection
counts them.
-/

namespace Unformat.Text

/-- A set of code points, by the increasing points at which membership changes; zero is outside
unless it is the first of them. -/
structure CodePointSet where
  changes : Array Nat

namespace CodePointSet

/-- How many of the increasing `points` are at most `n`, when the answer is known to lie between
`low` and `high`. -/
def countAtMost (points : Array Nat) (n low high : Nat) : Nat :=
  if low < high then
    let middle := (low + high) / 2
    if points.getD middle 0 ≤ n then countAtMost points n (middle + 1) high
    else countAtMost points n low middle
  else low
termination_by high - low

/-- The number of changes at or below `n`. -/
def changesUpTo (set : CodePointSet) (n : Nat) : Nat :=
  countAtMost set.changes n 0 set.changes.size

def contains (set : CodePointSet) (n : Nat) : Bool :=
  set.changesUpTo n % 2 == 1

/-- The first code point of the unbroken run of members that `n` belongs to. -/
def runStart? (set : CodePointSet) (n : Nat) : Option Nat :=
  let count := set.changesUpTo n
  if count % 2 == 1 then set.changes[count - 1]? else none

end CodePointSet

end Unformat.Text
