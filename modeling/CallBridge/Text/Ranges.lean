/-!
# Sets of characters given by ranges

A class of characters that no short rule describes is a list of ranges of code
points.  `inRanges` decides membership, both ends of a range included.
-/

namespace CallBridge.Text

/-- Whether a code point lies in one of the ranges. -/
def inRanges (ranges : List (Nat × Nat)) (point : Nat) : Bool :=
  ranges.any fun range => decide (range.1 ≤ point) && decide (point ≤ range.2)

/-- Membership in a list of ranges is membership in one of them. -/
theorem inRanges_eq_true_iff {ranges : List (Nat × Nat)} {point : Nat} :
    inRanges ranges point = true ↔ ∃ range ∈ ranges, range.1 ≤ point ∧ point ≤ range.2 := by
  simp [inRanges]

end CallBridge.Text
