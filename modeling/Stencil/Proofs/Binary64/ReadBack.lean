import Mathlib.Data.List.DropRight
import Stencil.Expression.Number
import Stencil.Proofs.Binary64.Rounding

/-!
Written decimals read back. The amount that `shortestAmount` picks for a rank is nearest to that
rank (`readsBack_shortestAmount`), and the digits that spell an amount have it as their value
(`exists_digits_positional`). So the text of a finite decimal without a sign is digits, a point and
digits, and reading these gives the decimal again: `exists_digits_spellDecimal`.
-/

set_option autoImplicit false
set_option relaxedAutoImplicit false

namespace Stencil.Binary64

/-! ### The amount that is written -/

theorem tenPower_pos (places : Nat) : 0 < tenPower places :=
  Nat.pow_pos (by decide)

theorem tenPower_add (places others : Nat) :
    tenPower (places + others) = tenPower places * tenPower others :=
  Nat.pow_add 10 places others

/-- An amount reads back as the rank exactly if the rank is the nearest to it. -/
theorem readsBack_iff (rank amount : Nat) :
    readsBack rank amount = true ↔ nearestRank amount (tenPower 1074) = rank := by
  unfold readsBack
  exact beq_iff_eq

theorem mul_fivePower_shiftLeft (amount places : Nat) :
    (amount * Nat.pow 5 places) <<< places = amount * tenPower places := by
  rw [Nat.shiftLeft_eq, Nat.mul_assoc]
  exact congrArg (amount * ·) (Nat.mul_pow 5 2 places).symm

theorem readsBack_exactAmount (rank : Nat) : readsBack rank (exactAmount rank) = true := by
  have hexact : exactAmount rank <<< 1074 = units rank * tenPower 1074 := by
    unfold exactAmount
    generalize 1074 = places
    exact mul_fivePower_shiftLeft _ _
  exact (readsBack_iff _ _).2 (nearestRank_units rank (tenPower_pos 1074) hexact)

/-- Of two candidates the one that is chosen has passed the check. -/
theorem check_of_nearerOf?_eq_some {check : Nat → Bool} {amount below above chosen : Nat}
    (h : nearerOf? check amount below above = some chosen) : check chosen = true := by
  unfold nearerOf? at h
  split at h
  · cases h
    split <;> assumption
  · cases h
    assumption
  · cases h
    assumption
  · cases h

/-- An amount on the grid is chosen only if it reads back. -/
theorem readsBack_of_onGrid?_eq_some {rank step amount : Nat}
    (h : onGrid? rank step = some amount) :
    readsBack rank amount = true := by
  unfold onGrid? at h
  exact check_of_nearerOf?_eq_some h

/-- The shortest amount of a rank reads back, whichever of the candidates it is. -/
theorem readsBack_shortestAmount (rank : Nat) : readsBack rank (shortestAmount rank) = true := by
  simp only [shortestAmount]
  cases hfound : (List.range 17).findSome? fun count ↦ onGrid? rank
      (tenPower ((Nat.toDigits 10 (exactAmount rank)).length - 1 - count)) with
  | none => exact readsBack_exactAmount rank
  | some amount =>
    obtain ⟨count, -, hgrid⟩ := List.exists_of_findSome?_eq_some hfound
    exact readsBack_of_onGrid?_eq_some hgrid

/-! ### The digits of an amount -/

/-- Digits before others count as many times more as the power of ten for the others. -/
theorem ofDigitChars_append_eq (whole fraction : List Char) :
    Nat.ofDigitChars 10 (whole ++ fraction) 0 =
      Nat.ofDigitChars 10 whole 0 * tenPower fraction.length + Nat.ofDigitChars 10 fraction 0 := by
  rw [Nat.ofDigitChars_append, Nat.ofDigitChars_eq_ofDigitChars_zero, Nat.mul_comm]
  rfl

/-- Zeros are all that is dropped from the end. -/
theorem exists_dropFinalZeros_append (digits : List Char) :
    ∃ count, dropFinalZeros digits ++ List.replicate count '0' = digits := by
  refine ⟨(digits.rtakeWhile (· == '0')).length, ?_⟩
  have hzeros : digits.rtakeWhile (· == '0') =
      List.replicate (digits.rtakeWhile (· == '0')).length '0' := by
    refine List.eq_replicate_iff.2 ⟨rfl, fun c hc ↦ ?_⟩
    have hzero := List.mem_rtakeWhile_imp hc
    exact beq_iff_eq.1 hzero
  rw [← hzeros]
  exact List.rdropWhile_append_rtakeWhile

theorem isDigit_of_mem_dropFinalZeros {digits : List Char}
    (hdigits : ∀ c ∈ digits, c.isDigit = true)
    {c : Char} (hc : c ∈ dropFinalZeros digits) : c.isDigit = true := by
  obtain ⟨count, happend⟩ := exists_dropFinalZeros_append digits
  refine hdigits c ?_
  rw [← happend]
  exact List.mem_append_left _ hc

/-- The places behind the point of an amount, before zeros are dropped. -/
def paddedDigits (places amount : Nat) : List Char :=
  List.replicate (places - (Nat.toDigits 10 amount).length) '0' ++ Nat.toDigits 10 amount

theorem isDigit_of_mem_paddedDigits {places amount : Nat} {c : Char}
    (hc : c ∈ paddedDigits places amount) : c.isDigit = true := by
  rcases List.mem_append.1 hc with hzero | hdigit
  · rw [List.eq_of_mem_replicate hzero]
    rfl
  · exact Nat.isDigit_of_mem_toDigits (by decide) (by decide) hdigit

theorem length_paddedDigits {places amount : Nat} (hplaces : 0 < places)
    (hamount : amount < tenPower places) : (paddedDigits places amount).length = places := by
  have hlength : (Nat.toDigits 10 amount).length ≤ places :=
    (Nat.length_toDigits_le_iff (by decide) hplaces).2 hamount
  rw [paddedDigits, List.length_append, List.length_replicate]
  omega

theorem ofDigitChars_paddedDigits (places amount : Nat) :
    Nat.ofDigitChars 10 (paddedDigits places amount) 0 = amount := by
  rw [paddedDigits, Nat.ofDigitChars_append, Nat.ofDigitChars_replicate_zero, Nat.mul_zero,
    Nat.ofDigitChars_ten_toDigits]

/-- The part of an amount behind the point is the value of its digits there, each dropped zero
standing for one more place. -/
theorem fractionDigits_spec {amount : Nat} (hamount : amount < tenPower 1074) :
    (∀ c ∈ fractionDigits amount, c.isDigit = true) ∧ (fractionDigits amount).length ≤ 1074 ∧
      Nat.ofDigitChars 10 (fractionDigits amount) 0 *
        tenPower (1074 - (fractionDigits amount).length) = amount := by
  have hpadded : fractionDigits amount = dropFinalZeros (paddedDigits 1074 amount) := rfl
  have hlength := length_paddedDigits (by decide) hamount
  rw [hpadded]
  generalize 1074 = places at hamount hlength
  obtain ⟨count, happend⟩ := exists_dropFinalZeros_append (paddedDigits places amount)
  refine ⟨fun c ↦ isDigit_of_mem_dropFinalZeros fun _ ↦ isDigit_of_mem_paddedDigits, ?_⟩
  have hvalue := ofDigitChars_paddedDigits places amount
  generalize dropFinalZeros (paddedDigits places amount) = digits at happend
  rw [← happend] at hlength hvalue
  rw [List.length_append, List.length_replicate] at hlength
  rw [Nat.ofDigitChars_append, Nat.ofDigitChars_replicate_zero] at hvalue
  have hcount : places - digits.length = count := by omega
  refine ⟨by omega, ?_⟩
  rw [hcount, Nat.mul_comm]
  exact hvalue

/-! ### Reading what is written -/

theorem spell_finite (rank : Fin rankCount) :
    spell (.finite false rank) = positional (shortestAmount rank) := by
  rw [spell]
  exact List.nil_append _

/-- A decimal is a ratio to a power of ten, for any number of places that its fraction fits into. -/
theorem ofDecimal_eq_ofRatio {whole fraction : List Char} {places : Nat}
    (hlength : fraction.length ≤ places) :
    ofDecimal whole fraction = ofRatio false
      (Nat.ofDigitChars 10 whole 0 * tenPower places +
        Nat.ofDigitChars 10 fraction 0 * tenPower (places - fraction.length))
      (tenPower places) := by
  have hpower : tenPower places =
      tenPower fraction.length * tenPower (places - fraction.length) := by
    rw [← tenPower_add, Nat.add_sub_cancel' hlength]
  rw [ofDecimal, ofRatio, ofRatio, ofDigitChars_append_eq,
    ← nearestRank_mul _ _ (tenPower_pos (places - fraction.length)), hpower, Nat.add_mul,
    Nat.mul_assoc]

/-- An amount written with a point in every case: as many digits as the whole part has, the point,
and digits whose value is the rest of the amount. -/
theorem exists_digits_positional (amount : Nat) :
    ∃ fraction : List Char, (∀ c ∈ fraction, c.isDigit = true) ∧
      (if '.' ∈ positional amount then positional amount else positional amount ++ ['.', '0']) =
        Nat.toDigits 10 (amount / tenPower 1074) ++ '.' :: fraction ∧
      ofDecimal (Nat.toDigits 10 (amount / tenPower 1074)) fraction =
        ofRatio false amount (tenPower 1074) := by
  have hrest := Nat.div_add_mod' amount (tenPower 1074)
  have hlt := Nat.mod_lt amount (tenPower_pos 1074)
  unfold positional
  generalize amount / tenPower 1074 = whole at hrest
  generalize amount % tenPower 1074 = part at hrest hlt
  have hpoint : '.' ∉ Nat.toDigits 10 whole := fun hmem ↦ by
    have hdigit := Nat.isDigit_of_mem_toDigits (by decide) (by decide) hmem
    exact absurd hdigit (by decide)
  by_cases hpart : part = 0
  · refine ⟨['0'], by simp, by simp [hpart, hpoint], ?_⟩
    have hlength : ['0'].length ≤ 1074 := by decide
    rw [ofDecimal_eq_ofRatio hlength, Nat.ofDigitChars_ten_toDigits, ← hrest, hpart]
    simp [Nat.ofDigitChars_cons]
  · obtain ⟨hdigits, hlength, hvalue⟩ := fractionDigits_spec hlt
    refine ⟨fractionDigits part, hdigits, by simp [hpart], ?_⟩
    rw [ofDecimal_eq_ofRatio hlength, Nat.ofDigitChars_ten_toDigits, hvalue, hrest]

end Stencil.Binary64

namespace Stencil.Number

open Binary64

/-- The text of a finite decimal without a sign is digits, a point and digits, and the decimal is
what these digits denote. -/
theorem exists_digits_spellDecimal (rank : Fin rankCount) :
    ∃ whole fraction : List Char, (∀ c ∈ whole, c.isDigit = true) ∧
      (∀ c ∈ fraction, c.isDigit = true) ∧
      spellDecimal (.finite false rank) = whole ++ '.' :: fraction ∧
      ofDecimal whole fraction = .finite false rank := by
  have hrank : nearestRank (shortestAmount rank) (tenPower 1074) = rank :=
    (readsBack_iff _ _).1 (readsBack_shortestAmount rank)
  rw [spellDecimal, spell_finite]
  generalize shortestAmount rank = amount at hrank
  obtain ⟨fraction, hfraction, htext, hvalue⟩ := exists_digits_positional amount
  rw [ofRatio, hrank, ofRank, dif_pos rank.isLt] at hvalue
  generalize amount / tenPower 1074 = leading at htext hvalue
  have hwhole : ∀ c ∈ Nat.toDigits 10 leading, c.isDigit = true := fun c ↦
    Nat.isDigit_of_mem_toDigits (by decide) (by decide)
  exact ⟨Nat.toDigits 10 leading, fraction, hwhole, hfraction, htext, hvalue⟩

end Stencil.Number
