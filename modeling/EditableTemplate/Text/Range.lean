/-!
# Ranges of code points

A class of characters is given by the closed ranges of code points that it covers
(`Text.Ranges`). Membership is `Text.Ranges.covers`, and `Text.Ranges.covers_iff` says it in terms
of the ranges themselves.
-/

namespace EditableTemplate.Text

/-- A class of characters as a list of closed ranges of code points. -/
abbrev Ranges := List (Nat × Nat)

/-- Whether the code point of a character lies in one of the ranges. -/
def Ranges.covers (ranges : Ranges) (c : Char) : Bool :=
  ranges.any fun range => range.1 ≤ c.toNat && c.toNat ≤ range.2

/-- A character is covered exactly when some range holds its code point. -/
theorem Ranges.covers_iff (ranges : Ranges) (c : Char) :
    ranges.covers c = true ↔ ∃ range ∈ ranges, range.1 ≤ c.toNat ∧ c.toNat ≤ range.2 := by
  simp [Ranges.covers]

end EditableTemplate.Text
