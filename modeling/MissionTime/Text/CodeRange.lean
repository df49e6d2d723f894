/-!
# Ranges of Code Points

A property of characters is given by the ranges of code points that have it, in ascending
order.

## Main definitions

* `CodeRange` — the first and the last code point of a range;
* `covered` — whether some range of a list contains a character.
-/

namespace MissionTime.Text

/-- A range of code points, both ends included. -/
structure CodeRange where
  first : UInt32
  last : UInt32
  deriving DecidableEq

/-- A range contains the code points from its first to its last. -/
def CodeRange.contains (r : CodeRange) (c : Char) : Bool :=
  r.first ≤ c.val && c.val ≤ r.last

/-- Whether one of the ranges contains the character. -/
def covered (ranges : List CodeRange) (c : Char) : Bool :=
  ranges.any (·.contains c)

end MissionTime.Text
