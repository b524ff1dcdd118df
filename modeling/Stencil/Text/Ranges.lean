/-!
Character classes given as tables. A table lists closed ranges of code points, and a character
belongs to the class when some range holds its code point.
-/

set_option autoImplicit false
set_option relaxedAutoImplicit false

namespace Stencil.Text

/-- Whether one of the closed ranges holds the code point of the character. -/
def covers (ranges : List (Nat × Nat)) (c : Char) : Bool :=
  ranges.any fun range ↦ decide (range.1 ≤ c.toNat) && decide (c.toNat ≤ range.2)

/-- A character is covered exactly if it lies in one of the ranges. -/
theorem covers_eq_true_iff (ranges : List (Nat × Nat)) (c : Char) :
    covers ranges c = true ↔ ∃ range ∈ ranges, range.1 ≤ c.toNat ∧ c.toNat ≤ range.2 := by
  simp [covers]

end Stencil.Text
