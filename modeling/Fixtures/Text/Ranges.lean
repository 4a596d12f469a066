/-!
# Ranges of code points

A class of characters is a list of ranges, each given by its first and its last code point.
-/

namespace Fixtures.Text

/-- Whether one of the ranges holds a code point; a range is its first and its last member. -/
def inRanges (ranges : List (Nat × Nat)) (code : Nat) : Bool :=
  ranges.any fun range => decide (range.1 ≤ code ∧ code ≤ range.2)

end Fixtures.Text
