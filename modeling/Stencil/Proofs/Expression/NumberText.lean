import Stencil.Expression.NumberText
import Stencil.Proofs.Expression.Completeness
import Stencil.Proofs.Value.Access

/-!
Numbers read by way of their text are the same numbers. The text that is gathered from a literal is
the run of its digits with its point (`Number.gather_eq`). Where it has a point it spells a double,
always and whatever the digits are, because there is a digit in it (`Binary64.ofText?_digits`);
where it has none, adding digit after digit in 64 bits gives the number that they spell, or says
that it is too large, however many zeros come first (`Number.integerOfText_digits`). So the answers
in reserve are not needed for numbers: `Number.readText_eq`.
-/

set_option autoImplicit false
set_option relaxedAutoImplicit false

namespace Stencil

open Text

/-! ### Doubles -/

namespace Binary64

theorem toLower_of_isDigit {c : Char} (hc : c.isDigit = true) : c.toLower = c := by
  have hcode : 48 ≤ c.toNat ∧ c.toNat ≤ 57 := Char.isDigit_iff_toNat.1 hc
  refine dif_neg ?_
  rintro ⟨hlower, -⟩
  have hupper : 65 ≤ c.toNat := UInt32.le_iff_toNat_le.1 hlower
  omega

/-- What begins with a digit or a point is neither a name nor signed. -/
theorem ofText?_cons {c : Char} (hc : c.isDigit = true ∨ c = '.') (tail : List Char) :
    ofText? (c :: tail) =
      ofParts? false (leadingDigits (c :: tail)) (splitFraction (afterDigits (c :: tail))).1
        (splitFraction (afterDigits (c :: tail))).2 := by
  have hne : c ≠ '+' ∧ c ≠ '-' ∧ c.toLower ≠ 'i' ∧ c.toLower ≠ 'n' := by
    rcases hc with hdigit | rfl
    · rw [toLower_of_isDigit hdigit]
      refine ⟨?_, ?_, ?_, ?_⟩ <;> rintro rfl <;> exact absurd hdigit (by decide)
    · decide
  obtain ⟨hplus, hminus, hinfinite, hnan⟩ := hne
  have hunsigned : ofText? (c :: tail) = ofUnsigned? false (c :: tail) := by
    unfold ofText?
    split
    · rename_i heq
      exact absurd (List.cons.inj heq).1 hplus
    · rename_i heq
      exact absurd (List.cons.inj heq).1 hminus
    · rfl
  rw [hunsigned, ofUnsigned?]
  simp only [List.map_cons, List.cons.injEq, hinfinite, hnan, false_and, or_self, if_false]

/-- Digits around a point spell the nearest double, if there is a digit on either side. -/
theorem ofText?_digits {whole fraction : List Char} (hwhole : ∀ c ∈ whole, c.isDigit = true)
    (hfraction : ∀ c ∈ fraction, c.isDigit = true) (hne : whole ++ fraction ≠ []) :
    ofText? (whole ++ '.' :: fraction) = some (ofDecimal whole fraction) := by
  obtain ⟨c, tail, htext, hc⟩ : ∃ c tail, whole ++ '.' :: fraction = c :: tail ∧
      (c.isDigit = true ∨ c = '.') := by
    cases whole with
    | nil => exact ⟨'.', fraction, rfl, Or.inr rfl⟩
    | cons c tail => exact ⟨c, tail ++ '.' :: fraction, rfl, Or.inl (hwhole c List.mem_cons_self)⟩
  have hpoint : StartsOutside Char.isDigit ('.' :: fraction) := startsOutside_cons.2 (by decide)
  have hleading : leadingDigits (c :: tail) = whole := by
    rw [← htext]
    exact takeWhile_append hwhole hpoint
  have hafter : afterDigits (c :: tail) = '.' :: fraction := by
    rw [← htext]
    exact dropWhile_append hwhole hpoint
  have hrun := takeWhile_append hfraction startsOutside_nil
  have hend := dropWhile_append hfraction startsOutside_nil
  rw [List.append_nil] at hrun hend
  have hsplit : splitFraction ('.' :: fraction) = (fraction, []) :=
    Prod.ext hrun hend
  have hpower : (-(0 - (fraction.length : Int))).toNat = fraction.length := by omega
  have hunit : (0 - (fraction.length : Int)).toNat = 0 := by omega
  rw [htext, ofText?_cons hc, hleading, hafter, hsplit, ofParts?, if_neg hne]
  have hone : tenPower 0 = 1 := rfl
  simp only [exponent?, Option.map_some, hpower, hunit, hone, Nat.mul_one, ofDecimal]

end Binary64

namespace Number

/-! ### Integers -/

/-- One more digit is added without wrapping around. -/
theorem appendDigit_ofNat {amount : Nat} (hamount : amount ≤ greatest) {c : Char}
    (hc : c.isDigit = true) :
    appendDigit false (Int64.ofNat amount) c =
      if 10 * amount + (c.toNat - '0'.toNat) ≤ greatest then
        .ok (Int64.ofNat (10 * amount + (c.toNat - '0'.toNat)))
      else .error .tooLarge := by
  have hcode : '0'.toNat ≤ c.toNat := (Char.isDigit_iff_toNat.1 hc).1
  have hvalue : (Int64.ofNat amount).toInt = amount :=
    Int64.toInt_ofNat_of_lt (by unfold greatest at hamount; omega)
  have hnext : 10 * (amount : Int) + ((c.toNat : Int) - ('0'.toNat : Int)) =
      (10 * amount + (c.toNat - '0'.toNat) : Nat) := by omega
  simp only [appendDigit, hvalue, hc, Bool.false_eq_true, if_false, reduceCtorEq, hnext]
  generalize 10 * amount + (c.toNat - '0'.toNat) = next
  by_cases hnext : next ≤ greatest
  · have hsmall : ¬(greatest : Int) < next := by omega
    have hlarge : ¬(next : Int) < -(greatest : Int) - 1 := by omega
    rw [if_neg hsmall, if_neg hlarge, if_pos hnext]
    rfl
  · have hlarge : (greatest : Int) < next := by omega
    rw [if_pos hlarge, if_neg hnext]

/-- Once the number is too large it stays so, whatever digits follow. -/
theorem foldlM_appendDigit {digits : List Char} (hdigits : ∀ c ∈ digits, c.isDigit = true)
    {amount : Nat} (hamount : amount ≤ greatest) :
    digits.foldlM (appendDigit false) (Int64.ofNat amount) =
      if Nat.ofDigitChars 10 digits amount ≤ greatest then
        .ok (Int64.ofNat (Nat.ofDigitChars 10 digits amount))
      else .error .tooLarge := by
  induction digits generalizing amount with
  | nil =>
    rw [List.foldlM_nil, Nat.ofDigitChars_nil, if_pos hamount]
    rfl
  | cons c digits ih =>
    rw [List.forall_mem_cons] at hdigits
    rw [List.foldlM_cons, appendDigit_ofNat hamount hdigits.1, Nat.ofDigitChars_cons]
    by_cases hnext : 10 * amount + (c.toNat - '0'.toNat) ≤ greatest
    · rw [if_pos hnext]
      exact ih hdigits.2 hnext
    · have hlarge := Data.le_ofDigitChars digits (10 * amount + (c.toNat - '0'.toNat))
      rw [if_neg hnext, if_neg fun hle ↦ hnext (hlarge.trans hle)]
      rfl

/-- Digits are taken for the number that they spell, unless that is too large. -/
theorem integerOfText_digits {digits : List Char} (hne : digits ≠ [])
    (hdigits : ∀ c ∈ digits, c.isDigit = true) :
    integerOfText digits =
      if Nat.ofDigitChars 10 digits 0 ≤ greatest then
        .ok (Int64.ofNat (Nat.ofDigitChars 10 digits 0))
      else .error .tooLarge := by
  have hsign (c : Char) (tail : List Char) (htext : digits = c :: tail) : c ≠ '+' ∧ c ≠ '-' := by
    have hdigit := hdigits c (by rw [htext]; exact List.mem_cons_self)
    constructor <;> rintro rfl <;> exact absurd hdigit (by decide)
  have hfold := foldlM_appendDigit hdigits (Nat.zero_le greatest)
  unfold integerOfText
  split
  · exact absurd rfl hne
  · exact absurd rfl (hsign _ _ rfl).1
  · exact absurd rfl (hsign _ _ rfl).2
  · exact absurd rfl (hsign _ _ rfl).1
  · exact absurd rfl (hsign _ _ rfl).2
  · exact hfold

/-! ### Literals -/

/-- Gathering ends at what is no digit, unless it is the first point. -/
theorem gather_of_startsOutside {text rest : List Char} {decimal : Bool}
    (hrest : StartsOutside Char.isDigit rest) (hpoint : rest.head? ≠ some '.' ∨ decimal = true) :
    gather text decimal rest = (text, decimal, rest) := by
  cases rest with
  | nil => rfl
  | cons c rest =>
    have hc : c.isDigit = false := startsOutside_cons.1 hrest
    by_cases hdot : c = '.'
    · have hdecimal := hpoint.resolve_left fun hne ↦ hne (congrArg some hdot)
      rw [gather, if_pos hdot, if_pos hdecimal]
    · rw [gather, if_neg hdot, hc]
      rfl

/-- Digits are gathered one after the other. -/
theorem gather_append {digits : List Char} (hdigits : ∀ c ∈ digits, c.isDigit = true)
    (text : List Char) (decimal : Bool) (rest : List Char) :
    gather text decimal (digits ++ rest) = gather (text ++ digits) decimal rest := by
  induction digits generalizing text with
  | nil => rw [List.nil_append, List.append_nil]
  | cons c digits ih =>
    rw [List.forall_mem_cons] at hdigits
    have hdot : c ≠ '.' := by
      rintro rfl
      exact absurd hdigits.1 (by decide)
    rw [List.cons_append, gather, if_neg hdot, if_pos hdigits.1, ih hdigits.2, List.append_assoc]
    rfl

/-- A run of digits is gathered at once. -/
theorem gather_run (text : List Char) (decimal : Bool) (input : List Char) :
    gather text decimal input =
      gather (text ++ leadingDigits input) decimal (afterDigits input) := by
  have hdigits : ∀ c ∈ leadingDigits input, c.isDigit = true := fun _ ↦ eq_true_of_mem_takeWhile
  rw [← gather_append hdigits, leadingDigits_append_afterDigits]

/-- What is gathered is a run of digits, and a point with a further run where one follows. -/
theorem gather_eq (text input : List Char) :
    gather text false input =
      match afterDigits input with
      | '.' :: rest =>
        (text ++ (leadingDigits input ++ '.' :: leadingDigits rest), true, afterDigits rest)
      | rest => (text ++ leadingDigits input, false, rest) := by
  have hstart := startsOutside_dropWhile Char.isDigit input
  rw [gather_run]
  split
  · rename_i rest hpoint
    rw [hpoint, gather, if_pos rfl, gather_run]
    have hend : ∀ gathered, gather gathered true (afterDigits rest) =
        (gathered, true, afterDigits rest) := fun gathered ↦
      gather_of_startsOutside (startsOutside_dropWhile Char.isDigit rest) (Or.inr rfl)
    rw [if_neg Bool.false_ne_true]
    refine (hend _).trans ?_
    simp [afterDigits]
  · rename_i hpoint
    refine gather_of_startsOutside hstart (Or.inl fun hhead ↦ ?_)
    obtain ⟨rest, hrest⟩ := List.head?_eq_some_iff.1 hhead
    exact hpoint rest hrest

section Literal

variable {c : Char} {tail : List Char}

theorem isDigit_of_mem_leadingDigits {text : List Char} :
    ∀ c ∈ leadingDigits text, c.isDigit = true :=
  fun _ ↦ eq_true_of_mem_takeWhile

theorem leadingDigits_ne_nil (hc : c.isDigit = true) : leadingDigits (c :: tail) ≠ [] := by
  rw [leadingDigits, List.takeWhile_cons_of_pos hc]
  exact List.cons_ne_nil _ _

/-- A literal with a point always spells a double. -/
theorem readText_of_point (spare : Spare) (hc : c.isDigit = true ∨ c = '.') {rest : List Char}
    (hpoint : afterDigits (c :: tail) = '.' :: rest) :
    readText spare (c :: tail) = read (c :: tail) := by
  have htext : Binary64.ofText? ((if (c :: tail).head? = some '.' then ['0'] else []) ++
      (leadingDigits (c :: tail) ++ '.' :: leadingDigits rest)) =
      some (Binary64.ofDecimal (leadingDigits (c :: tail)) (leadingDigits rest)) := by
    by_cases hdot : c = '.'
    · rw [List.head?_cons, if_pos (congrArg some hdot), List.singleton_append,
        ← List.cons_append]
      exact Binary64.ofText?_digits
        (List.forall_mem_cons.2 ⟨rfl, isDigit_of_mem_leadingDigits⟩) isDigit_of_mem_leadingDigits
        (List.cons_ne_nil _ _)
    · have hne : leadingDigits (c :: tail) ≠ [] := leadingDigits_ne_nil (hc.resolve_right hdot)
      rw [List.head?_cons, if_neg fun heq ↦ hdot (Option.some.inj heq)]
      exact Binary64.ofText?_digits isDigit_of_mem_leadingDigits isDigit_of_mem_leadingDigits
        fun hnil ↦ hne (List.append_eq_nil_iff.1 hnil).1
  rw [readText, gather_eq, read, hpoint]
  simp only [htext]
  rcases ofDecimal_finite_or_infinite (leadingDigits (c :: tail)) (leadingDigits rest) with
    ⟨rank, hfinite⟩ | hinfinite
  · rw [hfinite]
  · rw [hinfinite]

/-- A number without a point is read by its text as it is in place. -/
theorem readText_of_not_point (spare : Spare) (hc : c.isDigit = true)
    (hpoint : (afterDigits (c :: tail)).head? ≠ some '.') :
    readText spare (c :: tail) = read (c :: tail) := by
  have hdot : (c :: tail).head? ≠ some '.' := by
    intro heq
    obtain rfl := Option.some.inj heq
    exact absurd hc (by decide)
  have hgather : gather [] false (c :: tail) =
      (leadingDigits (c :: tail), false, afterDigits (c :: tail)) := by
    rw [gather_eq]
    split
    · rename_i rest hrest
      rw [hrest] at hpoint
      exact absurd rfl hpoint
    · rfl
  rw [readText, if_neg hdot, hgather, read_of_not_point hpoint]
  simp only [integerOfText_digits (leadingDigits_ne_nil hc) isDigit_of_mem_leadingDigits]
  by_cases hle : Nat.ofDigitChars 10 (leadingDigits (c :: tail)) 0 ≤ greatest
  · simp only [if_pos hle]
  · simp only [if_neg hle]

/-- What begins as a literal, with a digit or a point, is read the same by way of its text, and none
of the answers in reserve is given. -/
theorem readText_eq (spare : Spare) (hc : c.isDigit = true ∨ c = '.') (tail : List Char) :
    readText spare (c :: tail) = read (c :: tail) := by
  by_cases hpoint : (afterDigits (c :: tail)).head? = some '.'
  · obtain ⟨rest, hrest⟩ := List.head?_eq_some_iff.1 hpoint
    exact readText_of_point spare hc hrest
  · refine readText_of_not_point spare (hc.resolve_right ?_) hpoint
    rintro rfl
    exact hpoint rfl

end Literal

end Number

end Stencil
