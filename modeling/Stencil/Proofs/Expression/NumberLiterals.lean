import Stencil.Proofs.Binary64.Nearest
import Stencil.Proofs.Binary64.ReadBack
import Stencil.Proofs.Expression.NumberText
import Stencil.Proofs.Expression.Places

/-!
Number literals up to their limits. At every place of an operand, digits are read as the integer
that they spell as long as 63 bits hold it, and digits around a point as the double that is nearest
to the amount that they spell, as long as that double is finite (`OperandPlace.reads_text`). Beyond
these limits the literal is refused at its first byte, whatever follows it
(`OperandPlace.Refuses`). Zeros before the digits, and zeros behind those of a fraction, change
neither the number nor the fault, because they change neither the value
(`Digits.value_zeros_append`, `amount_zeros`) nor, therefore, the nearest double
(`decimalValue_eq_ofRank`). All of this is `OperandPlace.readsNumbers`; and no number of an
expression comes from anything else (`OperandPlace.exists_literal`).

The limit comes before the end: a literal beyond its limit that also runs on into a letter is
refused at its first byte, and one within its limit at the letter.
-/

set_option autoImplicit false
set_option relaxedAutoImplicit false

namespace Stencil

open Stencil.Derivation Text

/-! ### Amounts -/

namespace Derivation

namespace Digits

def zeros (count : Nat) : Digits where
  text := List.replicate count '0'
  isDigit_of_mem c hc := by
    rw [List.eq_of_mem_replicate hc]
    rfl

def append (front back : Digits) : Digits where
  text := front.text ++ back.text
  isDigit_of_mem c hc :=
    (List.mem_append.1 hc).elim (front.isDigit_of_mem c) (back.isDigit_of_mem c)

theorem value_zeros (count : Nat) : (zeros count).value = 0 := by
  rw [value, zeros, Nat.ofDigitChars_replicate_zero, Nat.mul_zero]

/-- Digits before others count as many times more as the power of ten for the others. -/
theorem value_append (front back : Digits) :
    (front.append back).value =
      front.value * Binary64.tenPower back.text.length + back.value :=
  Binary64.ofDigitChars_append_eq front.text back.text

/-- Zeros before digits do not change the number. -/
theorem value_zeros_append (count : Nat) (digits : Digits) :
    ((zeros count).append digits).value = digits.value := by
  rw [value_append, value_zeros, Nat.zero_mul, Nat.zero_add]

end Digits

/-- The amount that digits around a point spell; no digits spell zero. -/
def amount (whole fraction : Digits) : ℚ :=
  whole.value + fraction.value / 10 ^ fraction.text.length

theorem cast_tenPower (places : Nat) : (Binary64.tenPower places : ℚ) = 10 ^ places :=
  Nat.cast_pow 10 places

/-- The amount of a decimal is the ratio of all its digits to the power of ten for those behind the
point. -/
theorem amount_eq_ratio (whole fraction : Digits) :
    amount whole fraction =
      ((whole.append fraction).value : ℚ) / Binary64.tenPower fraction.text.length := by
  have hpower : (10 : ℚ) ^ fraction.text.length ≠ 0 := pow_ne_zero _ (by norm_num)
  rw [Digits.value_append, Nat.cast_add, Nat.cast_mul, cast_tenPower, add_div,
    mul_div_cancel_right₀ _ hpower, amount]

/-- Zeros before the whole part and behind the fraction do not count. -/
theorem amount_zeros (whole fraction : Digits) (count more : Nat) :
    amount ((Digits.zeros count).append whole) (fraction.append (.zeros more)) =
      amount whole fraction := by
  have hpower : (10 : ℚ) ^ more ≠ 0 := pow_ne_zero _ (by norm_num)
  have hlength : (fraction.append (.zeros more)).text.length = fraction.text.length + more := by
    simp [Digits.append, Digits.zeros]
  have hmore : (Digits.zeros more).text.length = more := List.length_replicate
  rw [amount, Digits.value_zeros_append, Digits.value_append, Digits.value_zeros, hlength, hmore,
    Nat.add_zero, Nat.cast_mul, cast_tenPower, pow_add, mul_div_mul_right _ _ hpower, amount]

/-- The rank that a decimal is read as is nearest to its amount. -/
theorem isNearest_amount (whole fraction : Digits) :
    Binary64.IsNearest (amount whole fraction) (Binary64.nearestRank (whole.append fraction).value
      (Binary64.tenPower fraction.text.length)) := by
  rw [amount_eq_ratio]
  exact Binary64.isNearest_nearestRank _ (Binary64.tenPower_pos _)

/-- The double of a literal is the nearest one, which is infinite past the last finite rank. -/
theorem decimalValue_eq_ofRank {whole fraction : Digits} {rank : Nat}
    (hrank : Binary64.IsNearest (amount whole fraction) rank) :
    decimalValue whole fraction = .ofRank false rank := by
  rw [decimalValue_eq, hrank.unique (isNearest_amount whole fraction)]
  rfl

end Derivation

/-! ### Places -/

namespace Number

/-- A literal within its limit that runs on is at fault where it does. -/
theorem readWhole_runsOn (form : NumberForm) {c : Char} {rest : List Char}
    (hrest : EndsLiteral form.text (c :: rest)) (hc : c = '.' ∨ isWord c = true) :
    readWhole (form.text ++ c :: rest) =
      .error (.located (c :: rest)
        (.malformedNumber (if c = '.' then .secondPoint else .unexpected c))) := by
  have hflaw : flawBefore? (c :: rest) =
      some (if c = '.' then .secondPoint else .unexpected c) := by
    by_cases hpoint : c = '.'
    · rw [flawBefore?, if_pos hpoint, if_pos hpoint]
    · rw [flawBefore?, if_neg hpoint, if_pos (hc.resolve_left hpoint), if_neg hpoint]
  simp only [readWhole, read_text form hrest, hflaw]

end Number

/-- An operand that begins with a digit or a point is a number. -/
theorem Scan.operand_number {c : Char} (hc : c.isDigit = true ∨ c = '.') (tail : List Char) :
    operand (c :: tail) =
      (Number.readWhole (c :: tail)).map fun reading ↦ (.number reading.1, reading.2) := by
  rw [operand, if_pos (by simpa using hc)]

theorem isBlank_eq_false_of_number {c : Char} (hc : c.isDigit = true ∨ c = '.') :
    isBlank c = false ∧ c ≠ ',' ∧ c ≠ '|' := by
  refine isBlank_eq_false_of_start (hc.imp isWord_of_isDigit ?_)
  rintro rfl
  exact List.mem_cons_self

namespace OperandPlace

variable {options : Options}

/-- The literal is read as the number at the place, and has to end there. -/
structure Reads (place : OperandPlace options) (literal : List Char) (number : Number) : Prop where
  /-- A source that ends with the literal is an expression, and its last operand is the number. -/
  alone : ∃ tree, Expression.scan options (.ofList (place.text ++ literal)) = .ok tree ∧
    tree.operands = place.operands ++ [.number number]
  /-- Before anything else that does not go on with it, the literal is read as the number. -/
  operand_eq : ∀ rest, Ends rest →
    Scan.operand (literal ++ rest) = .ok (.number number, rest)
  /-- If the source is an expression then the number is the operand that it has there. -/
  exists_operands : ∀ rest tree, Ends rest →
    Expression.scan options (.ofList (place.text ++ (literal ++ rest))) = .ok tree →
      ∃ more, tree.operands = place.operands ++ .number number :: more
  /-- A second point, or a word character, is a fault at its own byte. -/
  runsOn : ∀ c rest, Number.EndsLiteral literal (c :: rest) → c = '.' ∨ isWord c = true →
    Expression.scan options (.ofList (place.text ++ (literal ++ c :: rest))) =
      .error (.located (String.ofList (place.text ++ literal)).utf8ByteSize
        (.malformedNumber (if c = '.' then .secondPoint else .unexpected c)))

/-- The literal is refused at its first byte for the reason, whatever stands behind it. -/
def Refuses (place : OperandPlace options) (literal : List Char) (reason : String) : Prop :=
  ∃ flaw : NumberFlaw, flaw.message = reason ∧
    ∀ rest, Number.EndsLiteral literal rest →
      Expression.scan options (.ofList (place.text ++ (literal ++ rest))) =
        .error (.located (String.ofList place.text).utf8ByteSize (.malformedNumber flaw))

/-- At any place, the text of a number form is read as its value. -/
theorem reads_text (place : OperandPlace options) (form : NumberForm) :
    place.Reads form.text form.value where
  alone := by
    refine ⟨(place.closed (.number form)).tree, ?_, operands_closed place (.number form)⟩
    have htext := text_closed place (.number form)
    rw [OperandForm.spelling] at htext
    rw [Expression.scan_eq_ok_iff, String.toList_ofList, ← htext]
    exact Scan.expression_text _
  operand_eq rest hrest := Scan.operand_spelling (.number form) hrest
  exists_operands rest tree hrest hscan := by
    have hoperand := Scan.operand_spelling (.number form) hrest
    obtain ⟨c, tail, htext, hstart⟩ := form.exists_cons
    obtain ⟨hblank, hcomma, hbar⟩ := isBlank_eq_false_of_number hstart
    rw [OperandForm.spelling, htext, List.cons_append] at hoperand
    rw [htext, List.cons_append] at hscan
    exact place.exists_operands hblank hcomma hbar hoperand hscan
  runsOn found rest hrest hfound := by
    have hread := Number.readWhole_runsOn form hrest hfound
    obtain ⟨c, tail, htext, hstart⟩ := form.exists_cons
    obtain ⟨hblank, hcomma, hbar⟩ := isBlank_eq_false_of_number hstart
    have hoperand := Scan.operand_number hstart (tail ++ found :: rest)
    rw [htext, List.cons_append] at hread ⊢
    rw [hread] at hoperand
    exact place.scan_eq_error hblank hcomma hbar rfl hoperand

/-- At any place, digits within the limit are read as the number that they spell. -/
theorem reads_digits (place : OperandPlace options) {digits : Digits} (hnil : digits.text ≠ [])
    (hbounded : digits.value ≤ Number.greatest) :
    place.Reads digits.text (.integer (Int64.ofNat digits.value)) :=
  place.reads_text (.integer digits hnil hbounded)

/-- At any place, a decimal with a finite double nearest to it is read as that. -/
theorem reads_point (place : OperandPlace options) {whole fraction : Digits}
    {rank : Fin Binary64.rankCount} (hfinite : decimalValue whole fraction = .finite false rank) :
    place.Reads (whole.text ++ '.' :: fraction.text) (.decimal (.finite false rank)) := by
  have hform := place.reads_text (.decimal whole fraction ⟨rank, hfinite⟩)
  have hvalue : (NumberForm.decimal whole fraction ⟨rank, hfinite⟩).value =
      .decimal (.finite false rank) := congrArg Number.decimal hfinite
  rwa [hvalue] at hform

/-- The numbers of an expression come from literals that are read so. -/
theorem exists_literal {source : String} {tree : Expression} {number : Number}
    (hscan : Expression.scan options source = .ok tree)
    (hnumber : .number number ∈ tree.operands) :
    ∃ (place : OperandPlace options) (literal rest : List Char),
      source.toList = place.text ++ (literal ++ rest) ∧ Ends rest ∧ place.Reads literal number := by
  obtain ⟨derivation, htext, rfl⟩ := Scan.exists_derivation (Expression.scan_eq_ok_iff.1 hscan)
  obtain ⟨place, form, rest, hvalue, hrest, hplace⟩ := derivation.exists_place hnumber
  cases form with
  | number form =>
    obtain rfl := Operand.number.inj hvalue
    exact ⟨place, form.text, rest, htext.symm.trans hplace, hrest, place.reads_text form⟩
  | text form => cases hvalue
  | lookup form => cases hvalue

/-- A literal that is refused whatever ends it is refused at any place, at its first byte. -/
theorem refuses_of_read (place : OperandPlace options) {literal : List Char} {flaw : NumberFlaw}
    (hstart : ∃ c tail, literal = c :: tail ∧ (c.isDigit = true ∨ c = '.'))
    (hread : ∀ rest, Number.EndsLiteral literal rest → Number.read (literal ++ rest) =
      .error (.located (literal ++ rest) (.malformedNumber flaw))) :
    place.Refuses literal flaw.message := by
  refine ⟨flaw, rfl, fun rest hrest ↦ ?_⟩
  obtain ⟨c, tail, rfl, hc⟩ := hstart
  obtain ⟨hblank, hcomma, hbar⟩ := isBlank_eq_false_of_number hc
  have hoperand := Scan.operand_number hc (tail ++ rest)
  have hfault := hread rest hrest
  rw [List.cons_append] at hfault ⊢
  rw [Number.readWhole, hfault] at hoperand
  have hscan := place.scan_eq_error hblank hcomma hbar (List.nil_append _).symm hoperand
  rwa [List.append_nil] at hscan

/-- At any place, digits beyond the limit are refused. -/
theorem refuses_tooLarge (place : OperandPlace options) {digits : Digits}
    (hlarge : Number.greatest < digits.value) :
    place.Refuses digits.text NumberFlaw.tooLarge.message := by
  have hnil : digits.text ≠ [] := by
    intro hnil
    rw [Digits.value, hnil] at hlarge
    exact absurd hlarge (by decide)
  obtain ⟨c, tail, htext, hdigit⟩ := digits.exists_cons hnil
  refine place.refuses_of_read ⟨c, tail, htext, Or.inl hdigit⟩ fun rest hrest ↦ ?_
  exact (Number.read_digits digits.isDigit_of_mem hrest).trans (if_neg (Nat.not_le.2 hlarge))

/-- At any place, a decimal beyond all doubles is refused. -/
theorem refuses_outOfRange (place : OperandPlace options) {whole fraction : Digits}
    (hinfinite : decimalValue whole fraction = .infinite false) :
    place.Refuses (whole.text ++ '.' :: fraction.text) NumberFlaw.outOfRange.message := by
  refine place.refuses_of_read (whole.exists_cons_point fraction.text) fun rest hrest ↦ ?_
  rw [decimalValue_eq] at hinfinite
  rw [List.append_assoc, List.cons_append,
    Number.read_point whole.isDigit_of_mem fraction.isDigit_of_mem hrest.digit, hinfinite]

/-! ### Limits -/

/-- Numbers are read exactly up to their limits at the place. -/
structure ReadsNumbers (place : OperandPlace options) : Prop where
  integer : ∀ (zeros : Nat) (digits : Digits), digits.text ≠ [] → digits.value < 2 ^ 63 →
    ∃ value : Int64, value.toInt = digits.value ∧
      place.Reads (List.replicate zeros '0' ++ digits.text) (.integer value)
  tooLarge : ∀ (zeros : Nat) (digits : Digits), 2 ^ 63 ≤ digits.value →
    place.Refuses (List.replicate zeros '0' ++ digits.text)
      "number too large to fit in target type"
  /-- The nearest double, or the rank past all doubles, is never left open. -/
  existsUnique_nearest : ∀ whole fraction : Digits,
    ∃! rank, Binary64.IsNearest (amount whole fraction) rank
  decimal : ∀ (whole fraction : Digits) (rank : Fin Binary64.rankCount),
    Binary64.IsNearest (amount whole fraction) rank → ∀ zeros more : Nat,
      place.Reads (List.replicate zeros '0' ++ whole.text ++
        '.' :: (fraction.text ++ List.replicate more '0')) (.decimal (.finite false rank))
  outOfRange : ∀ (whole fraction : Digits) (rank : Nat),
    Binary64.IsNearest (amount whole fraction) rank → Binary64.rankCount ≤ rank →
      ∀ zeros more : Nat,
        place.Refuses (List.replicate zeros '0' ++ whole.text ++
          '.' :: (fraction.text ++ List.replicate more '0')) "out of range"
  /-- By way of its text a literal is read the same: no answer in reserve is given, and so the text
  of a decimal always spells a double. -/
  readText_eq : ∀ (spare : Spare) (c : Char) (tail : List Char), c.isDigit = true ∨ c = '.' →
    Number.readText spare (c :: tail) = Number.read (c :: tail)

theorem readsNumbers (options : Options) (place : OperandPlace options) : place.ReadsNumbers where
  integer zeros digits hnil hsmall := by
    refine ⟨Int64.ofNat digits.value, Int64.toInt_ofNat_of_lt hsmall, ?_⟩
    have hvalue := Digits.value_zeros_append zeros digits
    rw [← hvalue] at hsmall ⊢
    exact place.reads_digits (List.append_ne_nil_of_right_ne_nil _ hnil) (Nat.le_of_lt_succ hsmall)
  tooLarge zeros digits hlarge := by
    rw [← Digits.value_zeros_append zeros digits] at hlarge
    exact place.refuses_tooLarge hlarge
  existsUnique_nearest whole fraction :=
    ⟨_, isNearest_amount whole fraction, fun other hother ↦
      hother.unique (isNearest_amount whole fraction)⟩
  decimal whole fraction rank hrank zeros more := by
    -- with its zeros the literal has other digits, but the same amount and so the same rank
    rw [← amount_zeros whole fraction zeros more] at hrank
    have hvalue := decimalValue_eq_ofRank hrank
    rw [Binary64.ofRank, dif_pos rank.isLt] at hvalue
    exact place.reads_point hvalue
  outOfRange whole fraction rank hrank hlarge zeros more := by
    rw [← amount_zeros whole fraction zeros more] at hrank
    have hvalue := decimalValue_eq_ofRank hrank
    rw [Binary64.ofRank, dif_neg (Nat.not_lt.2 hlarge)] at hvalue
    exact place.refuses_outOfRange hvalue
  readText_eq spare c tail hc := Number.readText_eq spare hc tail

/-- The place behind `price|round: `. -/
def rounding : OperandPlace {} :=
  .argument ⟨[], isBlank_of_mem_nil⟩
    (.lookup ⟨⟨['p', 'r', 'i', 'c', 'e'], List.cons_ne_nil _ _, List.all_eq_true.1 rfl⟩, [],
      by rintro c ⟨⟩; rfl⟩)
    [] ⟨['r', 'o', 'u', 'n', 'd'], List.cons_ne_nil _ _, List.all_eq_true.1 rfl⟩ []
    ⟨[' '], List.all_eq_true.1 rfl⟩ (List.forall_mem_nil _) (Or.inr rfl)

/-- Zeros before seven, an integer that is too large with a zero before it, and a half without a
whole part. -/
theorem readsNumbers_rounding :
    rounding.text = "price|round: ".toList ∧
    (∃ value : Int64, value.toInt = 7 ∧ rounding.Reads ['0', '0', '7'] (.integer value)) ∧
    rounding.Refuses ('0' :: '1' :: List.replicate 19 '0')
      "number too large to fit in target type" ∧
    rounding.Reads ['.', '5'] (.decimal (.finite false ⟨0x3fe0000000000000, by decide⟩)) := by
  have hnumbers := readsNumbers {} rounding
  have hhalf : Binary64.nearestRank 5 10 = 0x3fe0000000000000 := by decide +kernel
  have hnearest : Binary64.IsNearest (amount ⟨[], nofun⟩ ⟨['5'], List.all_eq_true.1 rfl⟩)
      0x3fe0000000000000 := by
    rw [← hhalf]
    exact isNearest_amount _ _
  refine ⟨by decide +kernel, ?_, ?_, ?_⟩
  · exact hnumbers.integer 2 ⟨['7'], List.all_eq_true.1 rfl⟩ (List.cons_ne_nil _ _)
      (by decide +kernel)
  · exact hnumbers.tooLarge 1 ⟨'1' :: List.replicate 19 '0', List.all_eq_true.1 rfl⟩
      (by decide +kernel)
  · exact hnumbers.decimal _ _ ⟨0x3fe0000000000000, by decide⟩ hnearest 0 0

end OperandPlace

end Stencil
