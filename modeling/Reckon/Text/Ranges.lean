/-!
# Classes of characters as ranges

A class of characters is a list of ranges of code points. The tables of the
standard's classes stand in modules of their own.
-/

namespace Reckon.Text

/-- Ranges of code points, both ends included. -/
abbrev Ranges := List (Nat × Nat)

/-- A character lies in one of the ranges. -/
def Ranges.contains (ranges : Ranges) (c : Char) : Bool :=
  ranges.any fun range => decide (range.1 ≤ c.toNat) && decide (c.toNat ≤ range.2)

end Reckon.Text
