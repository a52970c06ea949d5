import PathRights.Text.Basic

/-!
Sets of characters, given as ranges of their numbers.
-/

namespace PathRights.Text

/-- The character lies in one of the ranges. -/
def liesIn (ranges : List (Nat × Nat)) (c : Char) : Bool :=
  ranges.any fun (low, high) => low ≤ c.toNat && c.toNat ≤ high

end PathRights.Text
