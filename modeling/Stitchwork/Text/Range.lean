/- # Stitchwork.Text.Range — classes of characters as lists of code ranges.
-/

namespace Stitchwork.Text

/-- Does the range of codes `r`, both ends included, hold `c`? -/
def covers (r : Nat × Nat) (c : Char) : Bool := r.1 ≤ c.toNat && c.toNat ≤ r.2

/-- Does one of the ranges hold `c`? -/
def inRanges (rs : List (Nat × Nat)) (c : Char) : Bool := rs.any (covers · c)

end Stitchwork.Text
