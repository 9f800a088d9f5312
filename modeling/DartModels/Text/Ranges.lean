/-! # Ranges of code points

A character class is a list of closed ranges, in ascending order.
-/

namespace DartModels.Text

/-- Closed ranges of code points. -/
abbrev Ranges := List (Nat × Nat)

namespace Ranges

def contains (rs : Ranges) (c : Char) : Bool :=
  rs.any fun r => r.1 ≤ c.toNat && c.toNat ≤ r.2

theorem contains_iff {rs : Ranges} {c : Char} :
    rs.contains c = true ↔ ∃ r ∈ rs, r.1 ≤ c.toNat ∧ c.toNat ≤ r.2 := by
  simp [contains]

end Ranges

end DartModels.Text
