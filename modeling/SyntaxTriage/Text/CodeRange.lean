/-!
Sets of characters, listed as ranges of code points with both ends included.
-/

namespace SyntaxTriage.Text

abbrev CodeRanges := List (Nat × Nat)

def CodeRanges.contains (ranges : CodeRanges) (c : Char) : Bool :=
  ranges.any fun (first, last) => first ≤ c.toNat && c.toNat ≤ last

end SyntaxTriage.Text
