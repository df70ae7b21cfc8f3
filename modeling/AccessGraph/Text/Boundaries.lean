/-!
# Character classes as tables of boundaries

A character class begins and ends at some code points, its boundaries. A character belongs to the
class when an odd number of boundaries is not above its code point.

* `Text.isWithin` : the class of a table of boundaries.
-/

namespace AccessGraph.Text

/-- The code point lies behind an odd number of boundaries. -/
def isWithin (boundaries : Array Nat) (code : Nat) : Bool :=
  boundaries.countP (· ≤ code) % 2 = 1

end AccessGraph.Text
