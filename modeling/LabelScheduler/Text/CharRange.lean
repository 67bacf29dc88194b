/-!
# Ranges of characters

A class of characters is a list of closed ranges of code points. Membership is a plain search, so a
question about one character can be decided by evaluation.
-/

namespace LabelScheduler.Text

/-- Closed ranges of code points, written as first and last member. -/
abbrev CharRanges := List (Nat × Nat)

/-- The code point of `c` lies in one of the ranges. -/
def CharRanges.has (ranges : CharRanges) (c : Char) : Bool :=
  ranges.any fun r => r.1 ≤ c.toNat && c.toNat ≤ r.2

end LabelScheduler.Text
