set_option autoImplicit false

/-! # Ranges of code points

Character properties that reach beyond ASCII are kept as tables of inclusive code point ranges.
A table is data; `CodeRanges.contains` is the only reader it has. -/

namespace CallablePurity.Text

/-- A set of characters as inclusive ranges `(first, last)` of code points, in ascending order. -/
abbrev CodeRanges := List (Nat × Nat)

namespace CodeRanges

/-- The character lies in one of the ranges. -/
def contains (ranges : CodeRanges) (c : Char) : Bool :=
  ranges.any fun r => r.1 ≤ c.toNat && c.toNat ≤ r.2

end CodeRanges

end CallablePurity.Text
