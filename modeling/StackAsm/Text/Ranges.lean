/-!
# Ranges of characters

A property of characters is given by the closed ranges of code points that have it, as of Unicode
15.0.
-/

namespace StackAsm.Text

/-- Closed ranges of code points, in ascending order. -/
abbrev Ranges := List (Nat × Nat)

/-- Whether a character lies in one of the ranges. -/
def Ranges.contains (ranges : Ranges) (c : Char) : Bool :=
  ranges.any fun (low, high) => low ≤ c.toNat && c.toNat ≤ high

end StackAsm.Text
