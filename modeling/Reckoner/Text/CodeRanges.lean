/-!
# Ranges of codes

Sets of characters as the ranges of their codes.
-/

namespace Reckoner.Text

/-- Whether a code is in one of some ranges. -/
def isCovered (ranges : List (Nat × Nat)) (code : Nat) : Bool :=
  ranges.any fun range => range.1 ≤ code && code ≤ range.2

end Reckoner.Text
