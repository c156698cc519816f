/-!
# Tables of Characters

A property of characters is given by the ranges of code points that have it, ends included,
in increasing order.

## Main definitions

* `Text.inRanges` — membership in such a table.
-/

namespace TrustedHtml.Text

/-- Membership in a table of ranges. -/
def inRanges (ranges : Array (Nat × Nat)) (n : Nat) : Bool :=
  ranges.any fun range => range.1 ≤ n && n ≤ range.2

end TrustedHtml.Text
