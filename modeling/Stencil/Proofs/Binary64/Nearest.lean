import Mathlib.Algebra.Order.Field.Basic
import Mathlib.Algebra.Order.Field.Rat
import Mathlib.Algebra.Ring.Parity
import Mathlib.Tactic.Linarith
import Stencil.Proofs.Binary64.Rounding

/-!
The nearest double. `IsNearest` says of an amount and a rank that no rank has a magnitude nearer to
the amount, and that the rank is even where another one is equally near. It says so for all ranks,
those past the last finite one included, so that an amount overflows where a rank of these is the
nearest. There is one such rank for every amount (`IsNearest.unique`), and `nearestRank` finds it
for the amounts that are ratios (`isNearest_nearestRank`). Every amount has a rank below it and a
rank above it with none in between, and one of the two is nearest (`IsNearest.of_neighbours`).
-/

set_option autoImplicit false
set_option relaxedAutoImplicit false

namespace Stencil.Binary64

/-- The magnitude of a rank. -/
def magnitude (rank : Nat) : ℚ :=
  units rank / 2 ^ 1074

/-- The rank is nearest to the amount, and even where another one is equally near. -/
structure IsNearest (amount : ℚ) (rank : Nat) : Prop where
  distance_le : ∀ other, |amount - magnitude rank| ≤ |amount - magnitude other|
  even_of_tie : ∀ other, other ≠ rank →
    |amount - magnitude other| = |amount - magnitude rank| → Even rank

theorem magnitude_strictMono : StrictMono magnitude := by
  intro rank other hlt
  have hunits : (units rank : ℚ) < units other := Nat.cast_lt.2 (units_strictMono hlt)
  exact div_lt_div_of_pos_right hunits (pow_pos two_pos _)

/-! ### Neighbours -/

section Neighbours

variable {amount : ℚ} {below rank other : Nat}

/-- From below, ranks come nearer to the amount. -/
theorem distance_lt_of_lt (hlower : magnitude rank ≤ amount) (hother : other < rank) :
    |amount - magnitude rank| < |amount - magnitude other| := by
  have hlt := magnitude_strictMono hother
  rw [abs_of_nonneg (sub_nonneg.2 hlower), abs_of_nonneg (by linarith)]
  linarith

/-- From above, ranks come nearer to the amount. -/
theorem distance_lt_of_gt (hupper : amount ≤ magnitude rank) (hother : rank < other) :
    |amount - magnitude rank| < |amount - magnitude other| := by
  have hlt := magnitude_strictMono hother
  rw [abs_of_nonpos (sub_nonpos.2 hupper), abs_of_nonpos (by linarith)]
  linarith

/-- The nearer one of the two ranks around an amount is nearest of all. -/
theorem IsNearest.of_neighbours (hlower : magnitude below ≤ amount)
    (hupper : amount ≤ magnitude (below + 1))
    (hbelow : |amount - magnitude rank| ≤ |amount - magnitude below|)
    (habove : |amount - magnitude rank| ≤ |amount - magnitude (below + 1)|)
    (htie : |amount - magnitude below| = |amount - magnitude (below + 1)| → Even rank)
    (hrank : rank = below ∨ rank = below + 1) : IsNearest amount rank := by
  have hplace (other : Nat) : other = below ∨ other = below + 1 ∨
      |amount - magnitude rank| < |amount - magnitude other| := by
    rcases Nat.lt_or_ge other below with hlt | hge
    · exact Or.inr (Or.inr (hbelow.trans_lt (distance_lt_of_lt hlower hlt)))
    · rcases Nat.lt_or_ge (below + 1) other with hlt | hle
      · exact Or.inr (Or.inr (habove.trans_lt (distance_lt_of_gt hupper hlt)))
      · omega
  constructor
  · intro other
    rcases hplace other with rfl | rfl | hlt
    · exact hbelow
    · exact habove
    · exact hlt.le
  · intro other hne heq
    rcases hplace other with rfl | rfl | hlt
    · obtain rfl := hrank.resolve_left hne.symm
      exact htie heq
    · obtain rfl := hrank.resolve_right hne.symm
      exact htie heq.symm
    · exact absurd heq hlt.ne'

/-- Between two ranks that are equally near there would be a nearer one, if one of them were not
odd. -/
theorem IsNearest.unique (hrank : IsNearest amount rank) (hother : IsNearest amount other) :
    rank = other := by
  wlog hlt : rank < other generalizing rank other
  · rcases Nat.lt_or_ge other rank with hgt | hge
    · exact (this hother hrank hgt).symm
    · omega
  have hsame : |amount - magnitude other| = |amount - magnitude rank| :=
    le_antisymm (hother.distance_le rank) (hrank.distance_le other)
  obtain ⟨half, heven⟩ := hrank.even_of_tie other hlt.ne' hsame
  obtain ⟨others, hothers⟩ := hother.even_of_tie rank hlt.ne hsame.symm
  have hnext : rank + 1 < other := by omega
  have hnear := hrank.distance_le (rank + 1)
  rcases le_total amount (magnitude (rank + 1)) with hupper | hlower
  · exact absurd (distance_lt_of_gt hupper hnext) (by rw [hsame]; exact not_lt.2 hnear)
  · exact absurd (distance_lt_of_lt hlower (Nat.lt_succ_self rank)) (not_lt.2 hnear)

end Neighbours

/-! ### Ratios -/

theorem cast_shiftLeft (amount places : Nat) :
    ((amount <<< places : Nat) : ℚ) = amount * 2 ^ places := by
  rw [Nat.shiftLeft_eq, Nat.cast_mul, Nat.cast_pow, Nat.cast_two]

theorem two_mul_shiftLeft (amount places : Nat) :
    (2 * amount) <<< places = 2 * (amount <<< places) := by
  rw [Nat.shiftLeft_eq, Nat.shiftLeft_eq, Nat.mul_assoc]

/-- An amount in units of `2 ^ -1074` is compared with a ratio by natural numbers. -/
theorem units_le_ratio_iff {amount numerator denominator : Nat} (hdenominator : 0 < denominator) :
    (amount : ℚ) / 2 ^ 1074 ≤ numerator / denominator ↔
      amount * denominator ≤ numerator <<< 1074 := by
  have hpositive : (0 : ℚ) < denominator := Nat.cast_pos.2 hdenominator
  rw [div_le_div_iff₀ (pow_pos two_pos _) hpositive, ← cast_shiftLeft, ← Nat.cast_mul, Nat.cast_le]

theorem ratio_le_units_iff {amount numerator denominator : Nat} (hdenominator : 0 < denominator) :
    (numerator : ℚ) / denominator ≤ amount / 2 ^ 1074 ↔
      numerator <<< 1074 ≤ amount * denominator := by
  have hpositive : (0 : ℚ) < denominator := Nat.cast_pos.2 hdenominator
  rw [div_le_div_iff₀ hpositive (pow_pos two_pos _), ← cast_shiftLeft, ← Nat.cast_mul, Nat.cast_le]

/-- The ratio is compared with the middle between two ranks by comparing its double with their
sum. -/
theorem magnitude_add_magnitude (rank other : Nat) :
    magnitude rank + magnitude other = ((units rank + units other : Nat) : ℚ) / 2 ^ 1074 := by
  rw [magnitude, magnitude, ← add_div, Nat.cast_add]

theorem two_mul_ratio (numerator denominator : Nat) :
    2 * ((numerator : ℚ) / denominator) = ((2 * numerator : Nat) : ℚ) / denominator := by
  rw [Nat.cast_mul, Nat.cast_two, mul_div_assoc]

/-- The rank that is computed for a ratio is nearest to it. -/
theorem isNearest_nearestRank (numerator : Nat) {denominator : Nat}
    (hdenominator : 0 < denominator) :
    IsNearest (numerator / denominator) (nearestRank numerator denominator) := by
  simp only [nearestRank, ← two_mul_shiftLeft]
  have hunits := units_rankBelow_le (numerator <<< 1074 / denominator)
  have hnext := lt_units_rankBelow_succ (numerator <<< 1074 / denominator)
  generalize rankBelow (numerator <<< 1074 / denominator) = below at hunits hnext
  have hlower : magnitude below ≤ (numerator : ℚ) / denominator :=
    (units_le_ratio_iff hdenominator).2 ((Nat.le_div_iff_mul_le hdenominator).1 hunits)
  have hupper : (numerator : ℚ) / denominator ≤ magnitude (below + 1) :=
    (ratio_le_units_iff hdenominator).2 ((Nat.div_lt_iff_lt_mul hdenominator).1 hnext).le
  have hbelow : |(numerator : ℚ) / denominator - magnitude below| =
      numerator / denominator - magnitude below := abs_of_nonneg (sub_nonneg.2 hlower)
  have habove : |(numerator : ℚ) / denominator - magnitude (below + 1)| =
      magnitude (below + 1) - numerator / denominator := by
    rw [abs_of_nonpos (sub_nonpos.2 hupper), neg_sub]
  have hmidpoint := magnitude_add_magnitude below (below + 1)
  have htwice := two_mul_ratio numerator denominator
  split
  · rename_i hless
    have hnearer := lt_of_not_ge ((units_le_ratio_iff hdenominator).not.2 (not_le.2 hless))
    rw [← hmidpoint, ← htwice] at hnearer
    exact .of_neighbours hlower hupper le_rfl (by linarith) (fun htie ↦ by linarith) (.inl rfl)
  rename_i hless
  split
  · rename_i hgreater
    have hnearer := lt_of_not_ge ((ratio_le_units_iff hdenominator).not.2 (not_le.2 hgreater))
    rw [← hmidpoint, ← htwice] at hnearer
    exact .of_neighbours hlower hupper (by linarith) le_rfl (fun htie ↦ by linarith) (.inr rfl)
  · rename_i hgreater
    have hle := (units_le_ratio_iff hdenominator).2 (not_lt.1 hless)
    have hge := (ratio_le_units_iff hdenominator).2 (not_lt.1 hgreater)
    rw [← hmidpoint, ← htwice] at hle hge
    have heven : Even (below + below % 2) := Nat.even_iff.2 (by omega)
    have hchoice : below + below % 2 = below ∨ below + below % 2 = below + 1 := by omega
    have hequal (rank : Nat) (hrank : rank = below ∨ rank = below + 1) :
        |(numerator : ℚ) / denominator - magnitude rank| =
          numerator / denominator - magnitude below := by
      rcases hrank with rfl | rfl
      · exact hbelow
      · linarith
    refine .of_neighbours hlower hupper ?_ ?_ (fun _ ↦ heven) hchoice
    · exact ((hequal _ hchoice).trans (hequal below (.inl rfl)).symm).le
    · exact ((hequal _ hchoice).trans (hequal (below + 1) (.inr rfl)).symm).le

end Stencil.Binary64
