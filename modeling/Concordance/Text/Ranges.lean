/-!
# Ranges of code points

A character class of Unicode is kept as a list of closed ranges of code points, and a character is
in the class when one of the ranges holds its code point.
-/

namespace Concordance.Text

/-- Whether one of the closed ranges holds the code point of `c`. -/
def inRanges (ranges : List (Nat × Nat)) (c : Char) : Bool :=
  ranges.any fun range => range.1 ≤ c.toNat && c.toNat ≤ range.2

end Concordance.Text
