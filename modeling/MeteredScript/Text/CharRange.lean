/-!
Sets of characters given as sorted, inclusive ranges of code points.
-/

namespace MeteredScript.Text

/-- Membership of a character in a union of inclusive code point ranges. -/
def inRanges (ranges : List (Nat × Nat)) (c : Char) : Bool :=
  ranges.any fun r => r.1 ≤ c.toNat && c.toNat ≤ r.2

end MeteredScript.Text
