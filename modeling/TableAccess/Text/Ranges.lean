/-!
Sets of numbers as ranges.

A property of characters is a table of ranges, ends included, in ascending order, so a look-up stops
at the first range that starts above the number.
-/

namespace TableAccess

/-- Ranges of numbers, each from its first to its last. -/
abbrev Ranges := List (Nat × Nat)

namespace Ranges

/-- Whether a number is in a range, up to the first range that starts above it. -/
def holds : Ranges → Nat → Bool
  | [], _ => false
  | (first, last) :: rest, n => first ≤ n && (n ≤ last || holds rest n)

end Ranges

end TableAccess
