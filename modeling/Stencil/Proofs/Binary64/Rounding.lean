import Mathlib.Order.Monotone.Basic
import Mathlib.Tactic.Ring
import Stencil.Binary64.Nearest

/-!
Rounding to double precision. Magnitudes increase strictly with their ranks (`units_strictMono`),
by a spacing that doubles from block to block (`units_succ`), so that every amount lies between the
magnitudes of one rank and the next: `units_rankBelow_le` and `lt_units_rankBelow_succ`. The nearest
rank depends on the ratio alone and not on how it is written (`nearestRank_mul`), and a magnitude is
nearest to itself (`nearestRank_units`).
-/

set_option autoImplicit false
set_option relaxedAutoImplicit false

namespace Stencil.Binary64

/-! ### Magnitudes by rank -/

theorem units_of_lt {rank : Nat} (hrank : rank < blockSize) : units rank = rank := by
  rw [units, if_pos hrank]

theorem div_block (block : Nat) {offset : Nat} (hoffset : offset < blockSize) :
    ((block + 1) * blockSize + offset) / blockSize = block + 1 := by
  unfold blockSize at *
  omega

/-- Behind the first block, each block has magnitudes `2 ^ block` apart. -/
theorem units_block (block : Nat) {offset : Nat} (hoffset : offset < blockSize) :
    units ((block + 1) * blockSize + offset) = (blockSize + offset) * 2 ^ block := by
  have hge : ¬(block + 1) * blockSize + offset < blockSize := by
    unfold blockSize
    omega
  rw [units, if_neg hge, div_block block hoffset, Nat.mul_add_mod_of_lt hoffset, Nat.shiftLeft_eq,
    Nat.add_sub_cancel]

/-- Every rank is in the first block or at an offset in a later one. -/
theorem lt_or_exists_block (rank : Nat) :
    rank < blockSize ∨
      ∃ block offset, offset < blockSize ∧ rank = (block + 1) * blockSize + offset := by
  by_cases hrank : rank < blockSize
  · exact Or.inl hrank
  · refine Or.inr ⟨rank / blockSize - 1, rank % blockSize, Nat.mod_lt _ (by decide), ?_⟩
    unfold blockSize at *
    omega

/-- From one rank to the next the units grow by the step of the block. -/
theorem units_succ (rank : Nat) :
    units (rank + 1) = units rank + 2 ^ (rank / blockSize - 1) := by
  rcases lt_or_exists_block rank with hrank | ⟨block, offset, hoffset, rfl⟩
  · rw [units_of_lt hrank, Nat.div_eq_of_lt hrank, Nat.zero_sub, pow_zero]
    by_cases hnext : rank + 1 < blockSize
    · exact units_of_lt hnext
    · have hstart : rank + 1 = blockSize := by omega
      rw [hstart]
      rfl
  · rw [units_block block hoffset, div_block block hoffset, Nat.add_sub_cancel, Nat.add_assoc]
    by_cases hnext : offset + 1 < blockSize
    · rw [units_block block hnext]
      ring
    · have hfull : offset + 1 = blockSize := by omega
      have hstart : (block + 1) * blockSize + blockSize = (block + 1 + 1) * blockSize + 0 := by
        ring
      rw [hfull, hstart, units_block (block + 1) (by decide)]
      calc (blockSize + 0) * 2 ^ (block + 1) = (blockSize + blockSize) * 2 ^ block := by ring
        _ = (blockSize + (offset + 1)) * 2 ^ block := by rw [hfull]
        _ = (blockSize + offset) * 2 ^ block + 2 ^ block := by ring

theorem units_strictMono : StrictMono units := by
  refine strictMono_nat_of_lt_succ fun rank ↦ ?_
  have hspacing : 0 < 2 ^ (rank / blockSize - 1) := Nat.two_pow_pos _
  rw [units_succ]
  omega

/-! ### The rank below an amount -/

/-- An amount shifted to at most 53 bits, which has all of them where the shift is not zero. -/
theorem shifted_bounds (amount : Nat) :
    amount / 2 ^ (amount.log2 - 52) < 2 * blockSize ∧
      (amount.log2 - 52 = 0 ∨ blockSize ≤ amount / 2 ^ (amount.log2 - 52)) := by
  have hpositive : 0 < 2 ^ (amount.log2 - 52) := Nat.two_pow_pos _
  constructor
  · rw [Nat.div_lt_iff_lt_mul hpositive]
    calc amount < 2 ^ (amount.log2 + 1) := Nat.lt_log2_self
      _ ≤ 2 ^ (53 + (amount.log2 - 52)) := Nat.pow_le_pow_right (by decide) (by omega)
      _ = 2 * blockSize * 2 ^ (amount.log2 - 52) := by rw [pow_add]; rfl
  · by_cases hshift : amount.log2 - 52 = 0
    · exact Or.inl hshift
    · have hne : amount ≠ 0 := by
        rintro rfl
        exact hshift rfl
      refine Or.inr ?_
      rw [Nat.le_div_iff_mul_le hpositive]
      calc blockSize * 2 ^ (amount.log2 - 52) = 2 ^ (52 + (amount.log2 - 52)) := by
            rw [pow_add]; rfl
        _ = 2 ^ amount.log2 := by congr 1; omega
        _ ≤ amount := Nat.log2_self_le hne

/-- The rank below an amount has the amount's leading 53 bits as its magnitude, and its spacing is
the place value of the last of them. -/
theorem units_rankBelow (amount : Nat) :
    units (rankBelow amount) =
        amount / 2 ^ (amount.log2 - 52) * 2 ^ (amount.log2 - 52) ∧
      rankBelow amount / blockSize - 1 = amount.log2 - 52 := by
  obtain ⟨hlt, hfull⟩ := shifted_bounds amount
  simp only [rankBelow, Nat.shiftRight_eq_div_pow]
  generalize amount / 2 ^ (amount.log2 - 52) = leading at hlt hfull
  generalize amount.log2 - 52 = shift at hfull
  by_cases hleading : leading < blockSize
  · obtain rfl : shift = 0 := by omega
    rw [Nat.zero_mul, Nat.zero_add, units_of_lt hleading, Nat.div_eq_of_lt hleading]
    exact ⟨by simp, rfl⟩
  · obtain ⟨offset, rfl⟩ := Nat.exists_eq_add_of_le (Nat.le_of_not_lt hleading)
    have hoffset : offset < blockSize := by omega
    have hrank : shift * blockSize + (blockSize + offset) = (shift + 1) * blockSize + offset := by
      ring
    rw [hrank, units_block shift hoffset, div_block shift hoffset]
    exact ⟨rfl, rfl⟩

/-- The rank below an amount has no more units than that. -/
theorem units_rankBelow_le (amount : Nat) : units (rankBelow amount) ≤ amount := by
  rw [(units_rankBelow amount).1]
  exact Nat.div_mul_le_self _ _

/-- The next rank has more units than the amount. -/
theorem lt_units_rankBelow_succ (amount : Nat) : amount < units (rankBelow amount + 1) := by
  obtain ⟨hunits, hspacing⟩ := units_rankBelow amount
  rw [units_succ, hunits, hspacing]
  exact Nat.lt_div_mul_add (Nat.two_pow_pos _)

/-- The rank below an amount is the one whose units it reaches, but not those of the next. -/
theorem rankBelow_eq {rank amount : Nat} (hle : units rank ≤ amount)
    (hlt : amount < units (rank + 1)) : rankBelow amount = rank := by
  have hupper : rankBelow amount < rank + 1 :=
    units_strictMono.lt_iff_lt.1 ((units_rankBelow_le amount).trans_lt hlt)
  have hlower : rank < rankBelow amount + 1 :=
    units_strictMono.lt_iff_lt.1 (hle.trans_lt (lt_units_rankBelow_succ amount))
  omega

@[simp] theorem rankBelow_units (rank : Nat) : rankBelow (units rank) = rank :=
  rankBelow_eq le_rfl (units_strictMono (Nat.lt_succ_self rank))

/-! ### The nearest rank -/

/-- Numerator and denominator may be multiplied by the same factor. -/
theorem nearestRank_mul (numerator denominator : Nat) {factor : Nat} (hfactor : 0 < factor) :
    nearestRank (numerator * factor) (denominator * factor) =
      nearestRank numerator denominator := by
  have hamount : (numerator * factor) <<< 1074 = numerator <<< 1074 * factor := by
    rw [Nat.shiftLeft_eq, Nat.shiftLeft_eq]
    exact Nat.mul_right_comm _ _ _
  simp only [nearestRank, hamount]
  generalize numerator <<< 1074 = amount
  rw [Nat.mul_div_mul_right _ _ hfactor]
  generalize units (rankBelow (amount / denominator)) +
    units (rankBelow (amount / denominator) + 1) = width
  simp only [← Nat.mul_assoc, Nat.mul_lt_mul_right hfactor]

/-- The exact magnitude of a rank, over any denominator, is nearest to that rank. -/
theorem nearestRank_units (rank : Nat) {numerator denominator : Nat}
    (hdenominator : 0 < denominator)
    (hexact : numerator <<< 1074 = units rank * denominator) :
    nearestRank numerator denominator = rank := by
  have hnext : units rank < units (rank + 1) := units_strictMono (Nat.lt_succ_self rank)
  have hbelow : 2 * (units rank * denominator) <
      (units rank + units (rank + 1)) * denominator := by
    rw [← Nat.mul_assoc]
    exact Nat.mul_lt_mul_of_pos_right (by omega) hdenominator
  simp only [nearestRank, hexact, Nat.mul_div_cancel _ hdenominator, rankBelow_units]
  rw [if_pos hbelow]

end Stencil.Binary64
