/-!
# Sets of code points

A property of code points is given by the ranges that have it, each with its first and its last
member.
-/

namespace BoardHighlight
set_option autoImplicit false

/-- Whether a number lies within one of some closed ranges. -/
def inRanges (ranges : List (Nat × Nat)) (n : Nat) : Bool :=
  ranges.any fun range => range.1 ≤ n && n ≤ range.2

theorem inRanges_iff {ranges : List (Nat × Nat)} {n : Nat} :
    inRanges ranges n = true ↔ ∃ range ∈ ranges, range.1 ≤ n ∧ n ≤ range.2 := by
  simp [inRanges]

end BoardHighlight
