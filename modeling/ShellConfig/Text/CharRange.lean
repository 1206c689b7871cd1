/-!
Character classes given as tables of ranges of code points. A range is written as its first and its
last member, and a table lists its ranges in increasing order.
-/

set_option autoImplicit false

namespace ShellConfig

/-- The code points from the first number to the second, both included. -/
abbrev CharRange : Type := Nat × Nat

/-- Whether the character lies in one of the ranges. -/
def inRanges (ranges : List CharRange) (c : Char) : Bool :=
  ranges.any fun range => range.1 ≤ c.toNat && c.toNat ≤ range.2

/-- Whether the table is in increasing order, with a gap between each two of its ranges. -/
def inOrder : List CharRange → Bool
  | [] => true
  | [range] => range.1 ≤ range.2
  | range :: next :: rest =>
    range.1 ≤ range.2 && range.2 + 1 < next.1 && inOrder (next :: rest)

theorem inRanges_eq_true_iff {ranges : List CharRange} {c : Char} :
    inRanges ranges c = true ↔ ∃ range ∈ ranges, range.1 ≤ c.toNat ∧ c.toNat ≤ range.2 := by
  simp [inRanges]

end ShellConfig
