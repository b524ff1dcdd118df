import Stencil.Proofs.Expression.Soundness

/-!
The language that is read. A text has one derivation at most: where two texts start alike and what
follows cannot be mistaken for more of them, the parts they are put together from agree, from
operands (`OperandForm.append_inj`) through arguments and filters (`FilterForm.append_inj`) up to
whole texts (`Derivation.text_injective`). With soundness and completeness, the texts that are read
are those that have a derivation, and the expression is the tree of it
(`Expression.scan_eq_ok_iff_derived`).
-/

set_option autoImplicit false
set_option relaxedAutoImplicit false

namespace Stencil

open Text

namespace Derivation

/-! ### Operands -/

/-- A literal is written in one way: with a point if it is a decimal, and with the same digits. -/
theorem NumberForm.text_injective : Function.Injective NumberForm.text := by
  intro form other htext
  have hmixed (digits whole fraction : Digits) :
      digits.text ≠ whole.text ++ '.' :: fraction.text := by
    intro heq
    have hmem : '.' ∈ digits.text := by
      rw [heq]
      simp
    exact absurd (digits.isDigit_of_mem '.' hmem) (by decide)
  cases form with
  | integer digits _ _ =>
    cases other with
    | integer others _ _ =>
      obtain rfl : digits = others := Digits.ext htext
      rfl
    | decimal whole fraction _ => exact (hmixed digits whole fraction htext).elim
  | decimal whole fraction _ =>
    cases other with
    | integer digits _ _ => exact (hmixed digits whole fraction htext.symm).elim
    | decimal others behind _ =>
      have hpoint (tail : List Char) : StartsOutside Char.isDigit ('.' :: tail) :=
        startsOutside_cons.2 (by decide)
      obtain ⟨hwhole, hrest⟩ := append_inj_of_startsOutside whole.isDigit_of_mem
        others.isDigit_of_mem (hpoint _) (hpoint _) htext
      obtain rfl : whole = others := Digits.ext hwhole
      obtain rfl : fraction = behind := Digits.ext (List.cons.inj hrest).2
      rfl

/-- The closing quote is found in one place only, as no item before it starts with that quote. -/
theorem QuotedItem.append_inj {quote : Char} (hquote : quote ≠ '\\')
    {items others : List QuotedItem}
    (hitems : ∀ c, .plain c ∈ items → c ≠ quote ∧ c ≠ '\\')
    (hothers : ∀ c, .plain c ∈ others → c ≠ quote ∧ c ≠ '\\')
    (htext : items.flatMap QuotedItem.text ++ [quote] = others.flatMap QuotedItem.text ++ [quote]) :
    items = others := by
  have hnil {item : QuotedItem} {more : List QuotedItem}
      (hplain : ∀ c, .plain c ∈ item :: more → c ≠ quote ∧ c ≠ '\\') :
      [quote] ≠ (item :: more).flatMap QuotedItem.text ++ [quote] := by
    intro heq
    cases item with
    | plain c => exact (hplain c List.mem_cons_self).1 (List.cons.inj heq).1.symm
    | escaped c => exact hquote (List.cons.inj heq).1
  induction items generalizing others with
  | nil =>
    cases others with
    | nil => rfl
    | cons other others => exact (hnil hothers htext).elim
  | cons item items ih =>
    cases others with
    | nil => exact (hnil hitems htext.symm).elim
    | cons other others =>
      have hmore (hrest : items.flatMap QuotedItem.text ++ [quote] =
          others.flatMap QuotedItem.text ++ [quote]) : items = others :=
        ih (fun c hc ↦ hitems c (List.mem_cons_of_mem _ hc))
          (fun c hc ↦ hothers c (List.mem_cons_of_mem _ hc)) hrest
      rw [List.flatMap_cons, List.flatMap_cons, List.append_assoc, List.append_assoc] at htext
      cases item <;> cases other <;>
        simp only [QuotedItem.text, List.cons_append, List.nil_append, List.cons.injEq] at htext
      case plain.plain => rw [htext.1, hmore htext.2]
      case plain.escaped c _ => exact ((hitems c List.mem_cons_self).2 htext.1).elim
      case escaped.plain _ c => exact ((hothers c List.mem_cons_self).2 htext.1.symm).elim
      case escaped.escaped => rw [htext.2.1, hmore htext.2.2]

/-- Quoted texts that are written alike have the same quotes and the same items. -/
theorem TextForm.text_injective : Function.Injective TextForm.text := by
  rintro ⟨quote, items, hquote, hitems⟩ ⟨other, others, _, hothers⟩ htext
  simp only [TextForm.text, List.cons_append, List.cons.injEq] at htext
  obtain ⟨rfl, hrest⟩ := htext
  have hne : quote ≠ '\\' := by rcases hquote with rfl | rfl <;> decide
  obtain rfl := QuotedItem.append_inj hne hitems hothers hrest
  rfl

/-- Names that end where words end agree if the texts do. -/
theorem Name.append_inj {name other : Name} {rest otherRest : List Char}
    (hrest : StartsOutside isWord rest) (hotherRest : StartsOutside isWord otherRest)
    (htext : name.text ++ rest = other.text ++ otherRest) : name = other ∧ rest = otherRest := by
  obtain ⟨hname, hrest⟩ := append_inj_of_startsOutside name.isWord_of_mem other.isWord_of_mem
    hrest hotherRest htext
  exact ⟨Name.ext hname, hrest⟩

theorem startsOutside_isWord_names (names : List Name) :
    StartsOutside isWord (names.flatMap fun name ↦ '.' :: name.text) := by
  cases names with
  | nil => exact startsOutside_nil
  | cons name names => exact startsOutside_cons.2 isWord_point

/-- Names behind points agree if the texts do, since no name has a point in it. -/
theorem names_injective : Function.Injective
    fun names : List Name ↦ names.flatMap fun name ↦ '.' :: name.text := by
  intro names others htext
  simp only at htext
  induction names generalizing others with
  | nil =>
    cases others with
    | nil => rfl
    | cons other others => cases htext
  | cons name names ih =>
    cases others with
    | nil => cases htext
    | cons other others =>
      obtain ⟨rfl, hrest⟩ := Name.append_inj (startsOutside_isWord_names names)
        (startsOutside_isWord_names others) (List.cons.inj htext).2
      rw [ih hrest]

/-- Lookups that are written alike have the same names. -/
theorem LookupForm.text_injective : Function.Injective LookupForm.text := by
  intro form other htext
  obtain ⟨hfirst, hrest⟩ := Name.append_inj (startsOutside_isWord_names form.others)
    (startsOutside_isWord_names other.others) htext
  exact LookupForm.ext hfirst (names_injective hrest)

/-- An operand and what follows it are told apart in one way only. Reading finds the same end for
both texts, and the values agree in their kind. -/
theorem OperandForm.append_inj {form other : OperandForm} {rest otherRest : List Char}
    (hrest : Ends rest) (hotherRest : Ends otherRest)
    (htext : form.spelling ++ rest = other.spelling ++ otherRest) :
    form = other ∧ rest = otherRest := by
  have hread := Scan.operand_spelling form hrest
  rw [htext, Scan.operand_spelling other hotherRest] at hread
  obtain ⟨hvalue, rfl⟩ := Prod.mk.inj (Except.ok.inj hread)
  have hspelling := List.append_cancel_right htext
  refine ⟨?_, rfl⟩
  cases form <;> cases other <;> simp only [OperandForm.value, reduceCtorEq] at hvalue
  case number.number => exact congrArg OperandForm.number (NumberForm.text_injective hspelling)
  case text.text => exact congrArg OperandForm.text (TextForm.text_injective hspelling)
  case lookup.lookup => exact congrArg OperandForm.lookup (LookupForm.text_injective hspelling)

/-! ### Arguments and filters -/

/-- Blanks that end where no blank follows agree if the texts do. -/
theorem Blanks.append_inj {blanks other : Blanks} {rest otherRest : List Char}
    (hrest : StartsOutside isBlank rest) (hotherRest : StartsOutside isBlank otherRest)
    (htext : blanks.text ++ rest = other.text ++ otherRest) :
    blanks = other ∧ rest = otherRest := by
  obtain ⟨hblanks, hrest⟩ := append_inj_of_startsOutside blanks.isBlank_of_mem
    other.isBlank_of_mem hrest hotherRest htext
  exact ⟨Blanks.ext hblanks, hrest⟩

/-- Arguments that end where operands end agree if the texts do, with the blanks before them. -/
theorem ArgumentForm.append_inj {form other : ArgumentForm} {rest otherRest : List Char}
    (hrest : Ends rest) (hotherRest : Ends otherRest)
    (htext : form.text ++ rest = other.text ++ otherRest) : form = other ∧ rest = otherRest := by
  rw [ArgumentForm.text, ArgumentForm.text, List.append_assoc, List.append_assoc] at htext
  obtain ⟨hblanks, hrestText⟩ := Blanks.append_inj (form.operand.startsOutside_isBlank rest)
    (other.operand.startsOutside_isBlank otherRest) htext
  obtain ⟨hoperand, hrest⟩ := OperandForm.append_inj hrest hotherRest hrestText
  exact ⟨ArgumentForm.ext hblanks hoperand, hrest⟩

open Scan in
/-- The arguments of a filter, behind its colon. A comma behind the last of them is one that the
options do not allow as a separator. -/
theorem arguments_append_inj {multiple : Bool} {first other : ArgumentForm}
    {forms others : List ArgumentForm} {rest otherRest : List Char}
    (hforms : multiple = true ∨ forms = []) (hothers : multiple = true ∨ others = [])
    (hrest : EndsArguments multiple rest) (hotherRest : EndsArguments multiple otherRest)
    (htext : first.text ++ (laterArguments forms ++ rest) =
      other.text ++ (laterArguments others ++ otherRest)) :
    first :: forms = other :: others ∧ rest = otherRest := by
  have hends {more : List ArgumentForm} {tail : List Char} (htail : EndsArguments multiple tail) :
      Ends (laterArguments more ++ tail) := by
    cases more with
    | nil => exact htail.ends
    | cons next more => exact ends_comma
  induction forms generalizing first other others with
  | nil =>
    obtain ⟨rfl, hrestText⟩ := ArgumentForm.append_inj (hends hrest) (hends hotherRest) htext
    cases others with
    | nil => exact ⟨rfl, hrestText⟩
    | cons next others =>
      have hmultiple : multiple = true := by simpa using hothers
      rw [laterArguments, List.flatMap_nil, List.nil_append] at hrestText
      rw [hrestText] at hrest
      exact absurd hrest (not_endsArguments_comma hmultiple)
  | cons next forms ih =>
    have hmultiple : multiple = true := by simpa using hforms
    obtain ⟨rfl, hrestText⟩ := ArgumentForm.append_inj (hends hrest) (hends hotherRest) htext
    cases others with
    | nil =>
      rw [laterArguments, laterArguments, List.flatMap_nil, List.nil_append] at hrestText
      rw [← hrestText] at hotherRest
      exact absurd hotherRest (not_endsArguments_comma hmultiple)
    | cons last others =>
      simp only [laterArguments, List.flatMap_cons, List.cons_append, List.append_assoc,
        List.cons.injEq, true_and] at hrestText
      obtain ⟨hmore, hsame⟩ := ih (Or.inl hmultiple) (Or.inl hmultiple) hrestText
      exact ⟨congrArg (first :: ·) hmore, hsame⟩

open Scan in
/-- Filters that end where arguments end agree if the texts do. -/
theorem FilterForm.append_inj {multiple : Bool} {form other : FilterForm}
    {rest otherRest : List Char} (hform : Allowed multiple form) (hother : Allowed multiple other)
    (hrest : EndsArguments multiple rest) (hotherRest : EndsArguments multiple otherRest)
    (htext : form.text ++ rest = other.text ++ otherRest) : form = other ∧ rest = otherRest := by
  simp only [FilterForm.text, List.cons_append, List.append_assoc, List.cons.injEq,
    true_and] at htext
  obtain ⟨hname, hrestText⟩ := Name.append_inj (hrest.startsOutside_argumentText form)
    (hotherRest.startsOutside_argumentText other) htext
  obtain ⟨name, arguments⟩ := form
  obtain ⟨otherName, otherArguments⟩ := other
  obtain rfl : name = otherName := hname
  cases arguments with
  | nil =>
    cases otherArguments with
    | nil => exact ⟨rfl, hrestText⟩
    | cons first others =>
      simp only [FilterForm.argumentText, List.nil_append] at hrestText
      rw [hrestText] at hrest
      exact absurd hrest not_endsArguments_colon
  | cons first forms =>
    cases otherArguments with
    | nil =>
      simp only [FilterForm.argumentText, List.nil_append] at hrestText
      rw [← hrestText] at hotherRest
      exact absurd hotherRest not_endsArguments_colon
    | cons otherFirst others =>
      simp only [FilterForm.argumentText, List.cons_append, List.append_assoc, List.cons.injEq,
        true_and] at hrestText
      obtain ⟨harguments, hsame⟩ := arguments_append_inj hform.multiple_or_nil
        hother.multiple_or_nil hrest hotherRest hrestText
      exact ⟨congrArg (FilterForm.mk name) harguments, hsame⟩

open Scan in
/-- Rows of filters that end where filters end agree if the texts do. -/
theorem filters_append_inj {multiple : Bool} {forms others : List FilterForm}
    {rest otherRest : List Char} (hforms : ∀ form ∈ forms, Allowed multiple form)
    (hothers : ∀ form ∈ others, Allowed multiple form) (hrest : EndsFilters multiple rest)
    (hotherRest : EndsFilters multiple otherRest)
    (htext : forms.flatMap FilterForm.text ++ rest = others.flatMap FilterForm.text ++ otherRest) :
    forms = others ∧ rest = otherRest := by
  induction forms generalizing others with
  | nil =>
    cases others with
    | nil => exact ⟨rfl, htext⟩
    | cons other others =>
      rw [List.flatMap_nil, List.nil_append] at htext
      rw [htext] at hrest
      exact absurd hrest not_endsFilters_bar
  | cons form forms ih =>
    cases others with
    | nil =>
      rw [List.flatMap_nil, List.nil_append] at htext
      rw [← htext] at hotherRest
      exact absurd hotherRest not_endsFilters_bar
    | cons other others =>
      rw [List.flatMap_cons, List.flatMap_cons, List.append_assoc, List.append_assoc] at htext
      obtain ⟨rfl, htail⟩ := FilterForm.append_inj (hforms form List.mem_cons_self)
        (hothers other List.mem_cons_self) (hrest.endsArguments_filters forms)
        (hotherRest.endsArguments_filters others) htext
      obtain ⟨rfl, hsame⟩ := ih (fun more hmore ↦ hforms more (List.mem_cons_of_mem _ hmore))
        (fun more hmore ↦ hothers more (List.mem_cons_of_mem _ hmore)) htail
      exact ⟨rfl, hsame⟩

/-! ### Whole texts -/

variable {options : Options}

/-- No text has two derivations. -/
theorem text_injective : Function.Injective (text : Derivation options → List Char) := by
  intro derivation other htext
  simp only [text, List.append_assoc] at htext
  obtain ⟨hleading, htext⟩ := Blanks.append_inj (derivation.operand.startsOutside_isBlank _)
    (other.operand.startsOutside_isBlank _) htext
  obtain ⟨hoperand, htext⟩ := OperandForm.append_inj
    (derivation.endsFilters_trailing.endsArguments_filters _).ends
    (other.endsFilters_trailing.endsArguments_filters _).ends htext
  obtain ⟨hfilters, htrailing⟩ := filters_append_inj derivation.allowed_of_mem_filters
    other.allowed_of_mem_filters derivation.endsFilters_trailing other.endsFilters_trailing htext
  exact Derivation.ext hleading hoperand hfilters (Blanks.ext htrailing)

end Derivation

/-- An expression is read from a text exactly when it is the tree of a derivation of the text, and
no text has two derivations. -/
theorem Expression.scan_eq_ok_iff_derived (options : Options) (source : String) :
    (∀ tree, Expression.scan options source = .ok tree ↔
      ∃ derivation : Derivation options, derivation.text = source.toList ∧
        derivation.tree = tree) ∧
    Function.Injective (Derivation.text : Derivation options → List Char) := by
  refine ⟨fun tree ↦ ?_, Derivation.text_injective⟩
  rw [Expression.scan_eq_ok_iff]
  constructor
  · intro hread
    exact Scan.exists_derivation hread
  · rintro ⟨derivation, htext, rfl⟩
    rw [← htext]
    exact Scan.expression_text derivation

end Stencil
