/-!
# Ranges of code points

A set of characters that a standard lists, kept as the closed ranges of code points it is made of.
-/

namespace Scriptlet.Text

/-- Whether a code point lies in one of the ranges, each given by its first and last code point. -/
def inRanges (ranges : List (Nat × Nat)) (n : Nat) : Bool :=
  ranges.any fun (lo, hi) => lo ≤ n && n ≤ hi

/-- A number is in the ranges if one of them holds it. -/
theorem inRanges_iff {ranges : List (Nat × Nat)} {n : Nat} :
    inRanges ranges n ↔ ∃ r ∈ ranges, r.1 ≤ n ∧ n ≤ r.2 := by
  simp [inRanges]

end Scriptlet.Text
