/-!
# Ranges of code points

A class of characters is kept as a list of closed ranges of code points, in ascending order and with
a gap between any two.
-/

namespace ScriptBackend.Text

/-- Membership of a code point in a list of closed ranges. -/
def inRanges (ranges : List (Nat × Nat)) (code : Nat) : Bool :=
  ranges.any fun range => range.1 ≤ code && code ≤ range.2

/-- Whether every range is in order and ends before the next one starts. -/
def isAscending : List (Nat × Nat) → Bool
  | [] => true
  | [range] => range.1 ≤ range.2
  | first :: second :: rest =>
    first.1 ≤ first.2 && first.2 < second.1 && isAscending (second :: rest)

/-- A code point is in a list of ranges exactly when one of the ranges spans it. -/
theorem inRanges_iff {ranges : List (Nat × Nat)} {code : Nat} :
    inRanges ranges code = true ↔ ∃ range ∈ ranges, range.1 ≤ code ∧ code ≤ range.2 := by
  simp [inRanges]

end ScriptBackend.Text
