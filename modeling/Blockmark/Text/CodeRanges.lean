/-!
# Ranges of code points

Sets of characters, given by the ranges of their code points.
-/

namespace Blockmark.Text

abbrev CodeRanges := List (Nat × Nat)

def CodeRanges.holds (ranges : CodeRanges) (c : Char) : Bool :=
  ranges.any fun range => range.1 ≤ c.toNat && c.toNat ≤ range.2

end Blockmark.Text
