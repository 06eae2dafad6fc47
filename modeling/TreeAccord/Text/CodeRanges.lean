/-!
# Ranges of code points
-/

namespace TreeAccord.Text

/-- A set of code points, given by the ends of its ranges. -/
abbrev CodeRanges := List (Nat × Nat)

/-- Whether the character lies in one of the ranges. -/
def CodeRanges.has (ranges : CodeRanges) (c : Char) : Bool :=
  ranges.any fun (first, last) => first ≤ c.toNat && c.toNat ≤ last

end TreeAccord.Text
