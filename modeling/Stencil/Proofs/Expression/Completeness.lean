import Stencil.Proofs.Binary64.Rounding
import Stencil.Proofs.Expression.Derivation
import Stencil.Proofs.Text.Runs

/-!
What is derived is read. Each reader, put before the text of a derivation and whatever may follow
it, takes that text and gives its value: `Number.readWhole_text`, `Literal.read?_items`,
`Lookup.read_text`, `Scan.operand_spelling`, `Scan.arguments_text`, `Scan.filters_text` and at last
`Scan.expression_text`. The text that follows is left free, as far as it cannot be mistaken for more
of what is read.
-/

set_option autoImplicit false
set_option relaxedAutoImplicit false

namespace Stencil

open Stencil.Derivation Text

/-- What may follow an operand: no point and no word character. -/
def Ends (rest : List Char) : Prop :=
  StartsOutside isWord rest ∧ rest.head? ≠ some '.'

theorem Ends.startsOutside_isDigit {rest : List Char} (hrest : Ends rest) :
    StartsOutside Char.isDigit rest := by
  intro c hc
  refine Bool.eq_false_iff.2 fun hdigit ↦ ?_
  have hword := hrest.1 c hc
  rw [isWord_of_isDigit hdigit] at hword
  cases hword

/-! ### Numbers -/

theorem ofDecimal_finite_or_infinite (whole fraction : List Char) :
    (∃ rank, Binary64.ofDecimal whole fraction = .finite false rank) ∨
      Binary64.ofDecimal whole fraction = .infinite false := by
  rw [Binary64.ofDecimal, Binary64.ofRatio]
  generalize Binary64.nearestRank _ _ = rank
  by_cases hrank : rank < Binary64.rankCount
  · exact Or.inl ⟨⟨rank, hrank⟩, by rw [Binary64.ofRank, dif_pos hrank]⟩
  · exact Or.inr (by rw [Binary64.ofRank, dif_neg hrank])

theorem decimalValue_eq (whole fraction : Digits) :
    decimalValue whole fraction = .ofDecimal whole.text fraction.text := by
  unfold decimalValue
  split
  · rename_i hnil
    rw [hnil]
    rfl
  · rfl

namespace Number

/-- What follows a literal and does not go on with it: no digit, and no point if there is none in
the literal. -/
structure EndsLiteral (literal rest : List Char) : Prop where
  digit : StartsOutside Char.isDigit rest
  point : '.' ∈ literal ∨ rest.head? ≠ some '.'

theorem endsLiteral_of_ends {rest : List Char} (hrest : Ends rest) (literal : List Char) :
    EndsLiteral literal rest :=
  ⟨hrest.startsOutside_isDigit, Or.inr hrest.2⟩

/-- With a point behind the digits, a decimal is read. -/
theorem read_of_point {input rest : List Char} (hpoint : afterDigits input = '.' :: rest) :
    read input =
      match Binary64.ofDecimal (leadingDigits input) (leadingDigits rest) with
      | .infinite _ => .error (.located input (.malformedNumber .outOfRange))
      | value => .ok (.decimal value, afterDigits rest) := by
  rcases ofDecimal_finite_or_infinite (leadingDigits input) (leadingDigits rest) with
    ⟨rank, hfinite⟩ | hinfinite
  · simp only [read, hpoint, hfinite]
  · simp only [read, hpoint, hinfinite]

/-- Without a point behind the digits, a whole number is read, if it is not too large. -/
theorem read_of_not_point {input : List Char} (hpoint : (afterDigits input).head? ≠ some '.') :
    read input =
      if Nat.ofDigitChars 10 (leadingDigits input) 0 ≤ greatest then
        .ok (.integer (Int64.ofNat (Nat.ofDigitChars 10 (leadingDigits input) 0)),
          afterDigits input)
      else .error (.located input (.malformedNumber .tooLarge)) := by
  unfold read
  split
  · rename_i rest hrest
    rw [hrest] at hpoint
    exact absurd rfl hpoint
  · rfl

/-- Digits are read up to their end as the whole number that they spell. -/
theorem read_digits {digits rest : List Char} (hdigits : ∀ c ∈ digits, c.isDigit = true)
    (hrest : EndsLiteral digits rest) :
    read (digits ++ rest) =
      if Nat.ofDigitChars 10 digits 0 ≤ greatest then
        .ok (.integer (Int64.ofNat (Nat.ofDigitChars 10 digits 0)), rest)
      else .error (.located (digits ++ rest) (.malformedNumber .tooLarge)) := by
  have hleading : leadingDigits (digits ++ rest) = digits := takeWhile_append hdigits hrest.digit
  have hafter : afterDigits (digits ++ rest) = rest := dropWhile_append hdigits hrest.digit
  have hpoint : (afterDigits (digits ++ rest)).head? ≠ some '.' := by
    rw [hafter]
    exact hrest.point.resolve_left fun hmem ↦ absurd (hdigits '.' hmem) (by decide)
  rw [read_of_not_point hpoint, hleading, hafter]

/-- Digits with a point are read up to their end as the double nearest to what they spell. -/
theorem read_point {whole fraction rest : List Char} (hwhole : ∀ c ∈ whole, c.isDigit = true)
    (hfraction : ∀ c ∈ fraction, c.isDigit = true) (hrest : StartsOutside Char.isDigit rest) :
    read (whole ++ '.' :: (fraction ++ rest)) =
      match Binary64.ofDecimal whole fraction with
      | .infinite _ => .error (.located (whole ++ '.' :: (fraction ++ rest))
          (.malformedNumber .outOfRange))
      | value => .ok (.decimal value, rest) := by
  have hpoint : StartsOutside Char.isDigit ('.' :: (fraction ++ rest)) :=
    startsOutside_cons.2 (by decide)
  have hleading : leadingDigits (whole ++ '.' :: (fraction ++ rest)) = whole :=
    takeWhile_append hwhole hpoint
  have hafter : afterDigits (whole ++ '.' :: (fraction ++ rest)) = '.' :: (fraction ++ rest) :=
    dropWhile_append hwhole hpoint
  have hfractionLeading : leadingDigits (fraction ++ rest) = fraction :=
    takeWhile_append hfraction hrest
  have hfractionAfter : afterDigits (fraction ++ rest) = rest := dropWhile_append hfraction hrest
  rcases ofDecimal_finite_or_infinite whole fraction with ⟨rank, hfinite⟩ | hinfinite
  · simp only [read_of_point hafter, hleading, hfractionLeading, hfractionAfter, hfinite]
  · simp only [read_of_point hafter, hleading, hfractionLeading, hinfinite]

/-- The text of a number form is read as its value. -/
theorem read_text (form : NumberForm) {rest : List Char} (hrest : EndsLiteral form.text rest) :
    read (form.text ++ rest) = .ok (form.value, rest) := by
  cases form with
  | integer digits hnil hbounded =>
    exact (read_digits digits.isDigit_of_mem hrest).trans (if_pos hbounded)
  | decimal whole fraction hfinite =>
    obtain ⟨rank, hrank⟩ := hfinite
    rw [NumberForm.text, NumberForm.value, hrank, List.append_assoc, List.cons_append]
    rw [decimalValue_eq] at hrank
    rw [read_point whole.isDigit_of_mem fraction.isDigit_of_mem hrest.digit, hrank]

theorem flawBefore?_eq_none {rest : List Char} (hrest : Ends rest) : flawBefore? rest = none := by
  cases rest with
  | nil => rfl
  | cons c tail =>
    have hpoint : c ≠ '.' := fun heq ↦ hrest.2 (by rw [heq, List.head?_cons])
    have hword : isWord c = false := startsOutside_cons.1 hrest.1
    rw [flawBefore?, if_neg hpoint, hword]
    rfl

/-- The text of a number form is read as its value and found to end there. -/
theorem readWhole_text (form : NumberForm) {rest : List Char} (hrest : Ends rest) :
    readWhole (form.text ++ rest) = .ok (form.value, rest) := by
  simp only [readWhole, read_text form (endsLiteral_of_ends hrest form.text),
    flawBefore?_eq_none hrest]

end Number

/-! ### Quoted texts -/

namespace Literal

theorem isQuote_iff (c : Char) : isQuote c = true ↔ c = '\'' ∨ c = '"' := by
  simp [isQuote]

theorem unescape_eq (c : Char) : unescape c = (QuotedItem.escaped c).value := by
  simp only [unescape, QuotedItem.value, isQuote, Bool.or_eq_true, beq_iff_eq, or_assoc]

/-- Items are read up to the closing quote, each as its value. -/
theorem read?_items {quote : Char} (hquote : quote = '\'' ∨ quote = '"') {items : List QuotedItem}
    (hplain : ∀ c, .plain c ∈ items → c ≠ quote ∧ c ≠ '\\') (rest : List Char) :
    read? quote (items.flatMap QuotedItem.text ++ quote :: rest) =
      some (items.flatMap QuotedItem.value, rest) := by
  induction items with
  | nil =>
    have hne : quote ≠ '\\' := by rcases hquote with rfl | rfl <;> decide
    simp [read?, hne]
  | cons item items ih =>
    have hread := ih fun c hc ↦ hplain c (List.mem_cons_of_mem _ hc)
    rw [List.flatMap_cons, List.flatMap_cons, List.append_assoc]
    cases item with
    | plain c =>
      obtain ⟨hne, hbackslash⟩ := hplain c List.mem_cons_self
      simp [QuotedItem.text, QuotedItem.value, read?, hne, hbackslash, hread]
    | escaped c =>
      simp [QuotedItem.text, read?, hread, unescape_eq]

end Literal

/-! ### Lookups -/

theorem Lookup.readSegments_of_not_point {input : List Char} (hne : leadingWord input ≠ [])
    (hpoint : (afterWord input).head? ≠ some '.') :
    Lookup.readSegments input = .ok ([String.ofList (leadingWord input)], afterWord input) := by
  rw [Lookup.readSegments_eq, if_neg hne]
  split
  · rename_i rest hrest
    rw [hrest] at hpoint
    exact absurd rfl hpoint
  · rfl

/-- Names with points between them are read as the path of them. -/
theorem Lookup.readSegments_text (first : Name) (others : List Name) {rest : List Char}
    (hrest : Ends rest) :
    Lookup.readSegments
        ((first.text ++ others.flatMap fun name ↦ '.' :: name.text) ++ rest) =
      .ok ((first :: others).map fun name ↦ String.ofList name.text, rest) := by
  induction others generalizing first with
  | nil =>
    have hleading : leadingWord (first.text ++ rest) = first.text :=
      takeWhile_append first.isWord_of_mem hrest.1
    have hafter : afterWord (first.text ++ rest) = rest :=
      dropWhile_append first.isWord_of_mem hrest.1
    rw [List.flatMap_nil, List.append_nil, Lookup.readSegments_eq, hleading, hafter,
      if_neg first.ne_nil]
    split
    · exact absurd rfl hrest.2
    · rfl
  | cons name others ih =>
    have hpoint (tail : List Char) : StartsOutside isWord ('.' :: tail) :=
      startsOutside_cons.2 isWord_point
    rw [List.flatMap_cons, List.append_assoc, List.cons_append, List.cons_append]
    have hleading := takeWhile_append first.isWord_of_mem
      (hpoint ((name.text ++ others.flatMap fun name ↦ '.' :: name.text) ++ rest))
    have hafter := dropWhile_append first.isWord_of_mem
      (hpoint ((name.text ++ others.flatMap fun name ↦ '.' :: name.text) ++ rest))
    rw [Lookup.readSegments_eq, leadingWord, afterWord, hleading, hafter, if_neg first.ne_nil]
    simp only [ih name, Except.map, List.map_cons]

theorem Derivation.LookupForm.exists_cons (form : LookupForm) :
    ∃ c tail, form.text = c :: tail ∧ isWord c = true ∧ c.isDigit = false := by
  have hstart := form.start
  have hword := form.first.isWord_of_mem
  rw [LookupForm.text]
  cases hfirst : form.first.text with
  | nil => exact absurd hfirst form.first.ne_nil
  | cons c tail =>
    rw [hfirst] at hstart hword
    exact ⟨c, _, rfl, hword c List.mem_cons_self, hstart c rfl⟩

/-- The text of a lookup form is read as its path. -/
theorem Lookup.read_text (form : LookupForm) {rest : List Char} (hrest : Ends rest) :
    Lookup.read (form.text ++ rest) = .ok (form.value, rest) := by
  obtain ⟨c, tail, htext, hword, -⟩ := form.exists_cons
  have hhead : (form.text ++ rest).head? = some c := by rw [htext]; rfl
  rw [Lookup.read, hhead]
  simp only [hword, if_true]
  exact Lookup.readSegments_text form.first form.others hrest

/-! ### Operands -/

theorem Derivation.Digits.exists_cons (digits : Digits) (hnil : digits.text ≠ []) :
    ∃ c tail, digits.text = c :: tail ∧ c.isDigit = true := by
  obtain ⟨c, tail, htext⟩ := List.exists_cons_of_ne_nil hnil
  refine ⟨c, tail, htext, digits.isDigit_of_mem c ?_⟩
  rw [htext]
  exact List.mem_cons_self

theorem Derivation.Digits.exists_cons_point (whole : Digits) (rest : List Char) :
    ∃ c tail, whole.text ++ '.' :: rest = c :: tail ∧ (c.isDigit = true ∨ c = '.') := by
  by_cases hnil : whole.text = []
  · rw [hnil]
    exact ⟨'.', rest, rfl, Or.inr rfl⟩
  · obtain ⟨c, tail, htext, hdigit⟩ := whole.exists_cons hnil
    rw [htext]
    exact ⟨c, tail ++ '.' :: rest, rfl, Or.inl hdigit⟩

theorem Derivation.NumberForm.exists_cons (form : NumberForm) :
    ∃ c tail, form.text = c :: tail ∧ (c.isDigit = true ∨ c = '.') := by
  cases form with
  | integer digits hnil hbounded =>
    obtain ⟨c, tail, htext, hdigit⟩ := digits.exists_cons hnil
    exact ⟨c, tail, htext, Or.inl hdigit⟩
  | decimal whole fraction hfinite => exact whole.exists_cons_point fraction.text

/-- A word character, a point or a quote neither parts nor ends anything. -/
theorem isBlank_eq_false_of_start {c : Char} (hc : isWord c = true ∨ c ∈ ['.', '\'', '"']) :
    isBlank c = false ∧ c ≠ ',' ∧ c ≠ '|' := by
  rcases hc with hword | hmark
  · refine ⟨Bool.eq_false_iff.2 fun hblank ↦ ?_, ?_, ?_⟩
    · rw [isWord_eq_false_of_isBlank hblank] at hword
      cases hword
    · rintro rfl
      exact absurd hword (by decide)
    · rintro rfl
      exact absurd hword (by decide)
  · simp only [List.mem_cons, List.not_mem_nil, or_false] at hmark
    rcases hmark with rfl | rfl | rfl <;> decide

/-- An operand starts with a character that neither parts nor ends anything. -/
theorem Derivation.OperandForm.exists_cons (form : OperandForm) :
    ∃ c tail, form.spelling = c :: tail ∧ isBlank c = false ∧ c ≠ ',' ∧ c ≠ '|' := by
  have hclass : ∃ c tail, form.spelling = c :: tail ∧ (isWord c = true ∨ c ∈ ['.', '\'', '"']) := by
    cases form with
    | number form =>
      obtain ⟨c, tail, htext, hdigit | rfl⟩ := form.exists_cons
      · exact ⟨c, tail, htext, Or.inl (isWord_of_isDigit hdigit)⟩
      · exact ⟨'.', tail, htext, Or.inr (by decide)⟩
    | text form =>
      refine ⟨form.quote, _, rfl, Or.inr ?_⟩
      rcases form.isQuote with hquote | hquote <;> rw [hquote] <;> decide
    | lookup form =>
      obtain ⟨c, tail, htext, hword, -⟩ := form.exists_cons
      exact ⟨c, tail, htext, Or.inl hword⟩
  obtain ⟨c, tail, htext, hstart⟩ := hclass
  exact ⟨c, tail, htext, isBlank_eq_false_of_start hstart⟩

/-- An operand does not begin with a blank. -/
theorem Derivation.OperandForm.startsOutside_isBlank (form : OperandForm) (rest : List Char) :
    StartsOutside isBlank (form.spelling ++ rest) := by
  obtain ⟨c, tail, hspelling, hblank, -⟩ := form.exists_cons
  rw [hspelling]
  exact startsOutside_cons.2 hblank

namespace Scan

/-- The text of an operand form is read as its value. -/
theorem operand_spelling (form : OperandForm) {rest : List Char} (hrest : Ends rest) :
    operand (form.spelling ++ rest) = .ok (form.value, rest) := by
  cases form with
  | number form =>
    obtain ⟨c, tail, htext, hstart⟩ := form.exists_cons
    have hread := Number.readWhole_text form hrest
    simp only [OperandForm.spelling, OperandForm.value]
    rw [htext, List.cons_append] at hread ⊢
    rw [operand, if_pos (by simpa using hstart), hread]
    rfl
  | text form =>
    have hquote := (Literal.isQuote_iff form.quote).2 form.isQuote
    have hstart : ¬(form.quote.isDigit || form.quote == '.') = true := by
      rcases form.isQuote with heq | heq <;> rw [heq] <;> decide
    have hread := Literal.read?_items form.isQuote form.ne_of_plain_mem rest
    simp only [OperandForm.spelling, OperandForm.value, TextForm.text, TextForm.value,
      List.cons_append, List.append_assoc, List.nil_append, operand]
    rw [if_neg hstart, if_pos hquote]
    simp only [hread]
  | lookup form =>
    obtain ⟨c, tail, htext, hword, hdigit⟩ := form.exists_cons
    have hread := Lookup.read_text form hrest
    have hpoint : c ≠ '.' := by
      rintro rfl
      exact absurd hword (by decide)
    have hquote : ¬Literal.isQuote c = true := by
      rw [Literal.isQuote_iff]
      rintro (rfl | rfl) <;> exact absurd hword (by decide)
    simp only [OperandForm.spelling, OperandForm.value]
    rw [htext, List.cons_append] at hread ⊢
    rw [operand, if_neg (by simp [hdigit, hpoint]), if_neg hquote, hread]
    rfl

/-- What may follow all the filters of an expression. -/
def EndsFilters (multiple : Bool) (rest : List Char) : Prop :=
  ∀ c ∈ rest.head?, isBlank c = true ∨ (c = ',' ∧ multiple = false)

/-- What may follow the arguments of a filter: that, or a further filter. -/
def EndsArguments (multiple : Bool) (rest : List Char) : Prop :=
  ∀ c ∈ rest.head?, c = '|' ∨ isBlank c = true ∨ (c = ',' ∧ multiple = false)

variable {multiple : Bool} {rest : List Char}

theorem EndsFilters.endsArguments (hrest : EndsFilters multiple rest) :
    EndsArguments multiple rest :=
  fun c hc ↦ Or.inr (hrest c hc)

theorem endsArguments_bar : EndsArguments multiple ('|' :: rest) := by
  rintro c ⟨⟩
  exact Or.inl rfl

theorem not_endsArguments_colon : ¬EndsArguments multiple (':' :: rest) := by
  intro hrest
  have hcolon := hrest ':' rfl
  simp [isBlank, covers, blankRanges] at hcolon

theorem not_endsArguments_comma (hmultiple : multiple = true) :
    ¬EndsArguments multiple (',' :: rest) := by
  intro hrest
  have hcomma := hrest ',' rfl
  simp [hmultiple, isBlank, covers, blankRanges] at hcomma

theorem not_endsFilters_bar : ¬EndsFilters multiple ('|' :: rest) := by
  intro hrest
  have hbar := hrest '|' rfl
  simp [isBlank, covers, blankRanges] at hbar

/-- The arguments of a filter end where the next filter begins, or where all filters end. -/
theorem EndsFilters.endsArguments_filters (forms : List FilterForm)
    (hrest : EndsFilters multiple rest) :
    EndsArguments multiple (forms.flatMap FilterForm.text ++ rest) := by
  cases forms with
  | nil => exact hrest.endsArguments
  | cons form forms => exact endsArguments_bar

theorem ends_comma : Ends (',' :: rest) :=
  ⟨startsOutside_cons.2 (by decide), by simp⟩

theorem EndsArguments.ends (hrest : EndsArguments multiple rest) : Ends rest := by
  have hclass : ∀ c ∈ rest.head?, isWord c = false ∧ c ≠ '.' := by
    intro c hc
    rcases hrest c hc with rfl | hblank | ⟨rfl, -⟩
    · decide
    · refine ⟨isWord_eq_false_of_isBlank hblank, ?_⟩
      rintro rfl
      exact absurd hblank (by decide)
    · decide
  exact ⟨fun c hc ↦ (hclass c hc).1, fun hpoint ↦ (hclass '.' hpoint).2 rfl⟩

theorem skipBlanks_spelling (blanks : Blanks) (form : OperandForm) (tail : List Char) :
    skipBlanks (blanks.text ++ (form.spelling ++ tail)) = form.spelling ++ tail :=
  dropWhile_append blanks.isBlank_of_mem (form.startsOutside_isBlank tail)

/-! ### Arguments and filters -/

/-- Arguments with commas between them are read as the values of them. -/
theorem arguments_text (name : String) (first : ArgumentForm) (others : List ArgumentForm)
    (hmultiple : multiple = true ∨ others = []) (hrest : EndsArguments multiple rest) :
    arguments multiple name (first.text ++ (laterArguments others ++ rest)) =
      .ok ((first :: others).map fun form ↦ .operand form.operand.value, rest) := by
  have hstart (form : ArgumentForm) (tail : List Char) :
      ¬(form.operand.spelling ++ tail).head? ∈ [none, some ',', some '|'] := by
    obtain ⟨c, others, hspelling, -, hcomma, hbar⟩ := form.operand.exists_cons
    simp [hspelling, hcomma, hbar]
  induction others generalizing first with
  | nil =>
    rw [arguments_eq, ArgumentForm.text, laterArguments, List.flatMap_nil, List.nil_append,
      List.append_assoc, skipBlanks_spelling, if_neg (hstart first _),
      operand_spelling first.operand hrest.ends]
    cases rest with
    | nil => rfl
    | cons c tail =>
      have hc := hrest c rfl
      have hcomma : ¬(c = ',' ∧ multiple = true) := by
        rintro ⟨rfl, hmultiple⟩
        exact not_endsArguments_comma hmultiple hrest
      have hend : c = ',' ∨ c = '|' ∨ isBlank c = true := by tauto
      simp only [if_neg hcomma, if_pos hend, List.map_cons, List.map_nil]
  | cons second others ih =>
    obtain rfl : multiple = true := by simpa using hmultiple
    have hmore := ih second (Or.inl rfl)
    rw [arguments_eq, ArgumentForm.text, laterArguments, List.flatMap_cons, List.append_assoc,
      skipBlanks_spelling, if_neg (hstart first _), List.cons_append, List.cons_append,
      operand_spelling first.operand ends_comma, List.append_assoc]
    rw [laterArguments] at hmore
    simp only [hmore, Except.map, and_self, if_true, List.map_cons]

/-- Whether a filter may have as many arguments as it has. -/
def Allowed (multiple : Bool) (form : FilterForm) : Prop :=
  multiple = false → form.arguments.length ≤ 1

/-- A filter that is allowed has several arguments only where that is an option. -/
theorem Allowed.multiple_or_nil {name : Name} {first : ArgumentForm} {others : List ArgumentForm}
    (hallowed : Allowed multiple ⟨name, first :: others⟩) : multiple = true ∨ others = [] := by
  cases multiple with
  | true => exact Or.inl rfl
  | false =>
    have hlength := hallowed rfl
    exact Or.inr (List.eq_nil_of_length_eq_zero (by simpa using hlength))

/-- The name of a filter ends where its arguments begin, or where the filter ends. -/
theorem EndsArguments.startsOutside_argumentText (hrest : EndsArguments multiple rest)
    (form : FilterForm) : StartsOutside isWord (form.argumentText ++ rest) := by
  obtain ⟨name, forms⟩ := form
  cases forms with
  | nil => exact hrest.ends.1
  | cons first others => exact startsOutside_cons.2 (by decide)

/-- With a colon behind its name, a filter has arguments. -/
theorem filter_of_colon {input rest : List Char} (hne : leadingWord input ≠ [])
    (hcolon : afterWord input = ':' :: rest) :
    filter multiple input =
      (arguments multiple (String.ofList (leadingWord input)) rest).map fun reading ↦
        (.filter ⟨String.ofList (leadingWord input), reading.1.filterMap Fragment.operand?⟩,
          reading.2) := by
  simp only [filter, if_neg hne, hcolon]

/-- Without a colon behind its name, a filter has none. -/
theorem filter_of_not_colon {input : List Char} (hne : leadingWord input ≠ [])
    (hcolon : (afterWord input).head? ≠ some ':') :
    filter multiple input =
      .ok (.filter ⟨String.ofList (leadingWord input), []⟩, afterWord input) := by
  rw [filter, if_neg hne]
  split
  · rename_i rest hrest
    rw [hrest] at hcolon
    exact absurd rfl hcolon
  · rfl

/-- The text of a filter form is read as its value. -/
theorem filter_text {form : FilterForm} (hallowed : Allowed multiple form)
    (hrest : EndsArguments multiple rest) :
    filter multiple (form.name.text ++ (form.argumentText ++ rest)) =
      .ok (.filter form.value, rest) := by
  have hstart := hrest.startsOutside_argumentText form
  obtain ⟨name, forms⟩ := form
  have hleading := takeWhile_append name.isWord_of_mem hstart
  have hafter := dropWhile_append name.isWord_of_mem hstart
  simp only [filter, leadingWord, afterWord, hleading, hafter, if_neg name.ne_nil]
  cases forms with
  | nil =>
    simp only [FilterForm.argumentText, List.nil_append, FilterForm.value, List.map_nil]
    split
    · exact absurd hrest not_endsArguments_colon
    · rfl
  | cons first others =>
    simp only [FilterForm.argumentText, List.cons_append, List.append_assoc,
      arguments_text (String.ofList name.text) first others hallowed.multiple_or_nil hrest,
      Except.map, FilterForm.value, List.filterMap_map]
    congr
    simp [Function.comp_def]

/-- The texts of filter forms are read as their values, one after the other. -/
theorem filters_text {forms : List FilterForm} (hallowed : ∀ form ∈ forms, Allowed multiple form)
    (hrest : EndsFilters multiple rest) :
    filters multiple (forms.flatMap FilterForm.text ++ rest) =
      .ok (forms.map fun form ↦ .filter form.value, rest) := by
  induction forms with
  | nil =>
    cases rest with
    | nil => rw [List.flatMap_nil, List.nil_append, filters]; rfl
    | cons c tail =>
      have hc := hrest c rfl
      have hbar : c ≠ '|' := by
        rintro rfl
        exact not_endsFilters_bar hrest
      have hend : c = ',' ∨ isBlank c = true := by tauto
      rw [List.flatMap_nil, List.nil_append, filters_cons, if_neg hbar, if_pos hend]
      rfl
  | cons form forms ih =>
    have hmore := ih fun other hother ↦ hallowed other (List.mem_cons_of_mem _ hother)
    have hread := filter_text (hallowed form List.mem_cons_self)
      (hrest.endsArguments_filters forms)
    rw [List.flatMap_cons, FilterForm.text, List.append_assoc, List.cons_append, filters_cons,
      if_pos rfl, List.append_assoc, hread]
    simp only [hmore, Except.map, List.map_cons]

/-! ### Whole texts -/

/-- Blanks, an operand form and filter forms are read as the fragments of their values. -/
theorem head_text (leading : Blanks) (form : OperandForm) {forms : List FilterForm}
    (hallowed : ∀ form ∈ forms, Allowed multiple form) (hrest : EndsFilters multiple rest) :
    head multiple (leading.text ++ (form.spelling ++ (forms.flatMap FilterForm.text ++ rest))) =
      .ok (.operand form.value :: forms.map fun form ↦ .filter form.value, rest) := by
  have hoperand := operand_spelling form (hrest.endsArguments_filters forms).ends
  have hfilters := filters_text hallowed hrest
  obtain ⟨c, tail, hspelling, hblank, hcomma, hbar⟩ := form.exists_cons
  rw [head, skipBlanks_spelling]
  rw [hspelling, List.cons_append] at hoperand ⊢
  simp only [if_neg hcomma, if_neg hbar, hoperand, hfilters, Except.map]

theorem skipBlanks_blanks (blanks : Blanks) : skipBlanks blanks.text = [] := by
  have hskip := dropWhile_append blanks.isBlank_of_mem startsOutside_nil
  rwa [List.append_nil] at hskip

end Scan

namespace Derivation

variable {options : Options} (derivation : Derivation options)

theorem allowed_of_mem_filters :
    ∀ form ∈ derivation.filters, Scan.Allowed options.multipleArguments form :=
  fun form hform hsingle ↦ derivation.length_arguments_le hsingle form hform

theorem endsFilters_trailing :
    Scan.EndsFilters options.multipleArguments derivation.trailing.text :=
  fun c hc ↦ Or.inl (derivation.trailing.isBlank_of_mem c (List.mem_of_mem_head? hc))

end Derivation

namespace Scan

/-- Every derived text is read as the expression that it denotes. -/
theorem expression_text {options : Options} (derivation : Derivation options) :
    expression options.multipleArguments derivation.text = .ok derivation.tree := by
  have hhead := head_text derivation.leading derivation.operand derivation.allowed_of_mem_filters
    derivation.endsFilters_trailing
  have hfragments : derivation.tree.fragments = .operand derivation.operand.value ::
      derivation.filters.map fun form ↦ .filter form.value := by
    simp [Expression.fragments, Derivation.tree]
  have hwhole : whole options.multipleArguments derivation.text =
      .ok derivation.tree.fragments := by
    rw [hfragments, whole, Derivation.text, List.append_assoc, List.append_assoc, hhead]
    cases htrailing : derivation.trailing.text with
    | nil => rfl
    | cons c tail =>
      have hskip := skipBlanks_blanks derivation.trailing
      rw [htrailing] at hskip
      simp only [hskip, if_true]
  simp only [expression, hwhole, Expression.ofFragments?_fragments]

end Scan

end Stencil
