/-
# Classes of characters given by ranges

A class of characters is a list of closed ranges of code points. The tables that use it list the
ranges in increasing order, so that a reader can check them against the standard, but membership
does not depend on the order.
-/

namespace MiniSql
namespace Text

/-- The code point lies in one of the ranges; both ends of a range belong to it. -/
def inRanges (ranges : List (Nat × Nat)) (n : Nat) : Bool :=
  ranges.any fun r => r.1 ≤ n && n ≤ r.2

/-- The test for ranges says so. -/
theorem inRanges_iff {ranges : List (Nat × Nat)} {n : Nat} :
    inRanges ranges n = true ↔ ∃ r ∈ ranges, r.1 ≤ n ∧ n ≤ r.2 := by
  simp [inRanges]

end Text
end MiniSql
