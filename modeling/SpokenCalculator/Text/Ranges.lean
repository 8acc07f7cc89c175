import SpokenCalculator.Text.Basic

/-!
# Sets of characters

* `Ranges`: a set of characters as an increasing table of ranges of code points;
* `Ranges.contains`: membership, read from the low end.
-/

namespace SpokenCalculator.Text

/-- A set of code points: disjoint ranges, each given by its first and last, in increasing
order. -/
abbrev Ranges := List (Nat × Nat)

/-- Membership in a table of ranges.  The search ends at the first range that is not below. -/
def Ranges.contains : Ranges → Nat → Bool
  | [], _ => false
  | (first, last) :: rest, n =>
    if n ≤ last then first ≤ n else Ranges.contains rest n

end SpokenCalculator.Text
