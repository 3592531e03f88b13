/-!
# Sets of characters as ranges of code points
-/

namespace ExprLang.Unicode

/-- The first and the last code point of a range. -/
abbrev CodeRange := Nat × Nat

def inRanges (ranges : List CodeRange) (c : Char) : Bool :=
  ranges.any fun range => decide (range.1 ≤ c.toNat ∧ c.toNat ≤ range.2)

theorem inRanges_iff {ranges : List CodeRange} {c : Char} :
    inRanges ranges c = true ↔ ∃ r ∈ ranges, r.1 ≤ c.toNat ∧ c.toNat ≤ r.2 := by
  simp [inRanges]

end ExprLang.Unicode
