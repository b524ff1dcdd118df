import Stencil.Proofs.Expression.Soundness

/-!
Where reading stops. A fault has a place in the text, and says of that place what is there: the
character that was found, a quote that opens, a name or an argument that is missing behind a bar, a
point, a colon or a comma (`Problem.Fits`). What stands before the place is not to blame: it can be
continued to a text of the language that was being read (`Scan.StopsIn`). Each reader stops in this
way in the language of its own production, and where one production stands inside of another, a
stop in the inner one is a stop in the outer one (`Scan.StopsIn.behind`): `Scan.operand_stops`,
`Scan.arguments_stops`, `Scan.filter_stops`, `Scan.filters_stops`, `Scan.head_stops` and
`Scan.whole_stops`.

A whole text has a fault without a place exactly where it is blank, and every other fault at a
character boundary of the source (`Expression.scan_error_place`).
-/

set_option autoImplicit false
set_option relaxedAutoImplicit false

namespace Stencil

open Stencil.Derivation Text

/-- What a problem says of its place, given the text before the place and the text from there on. -/
def Problem.Fits (front rest : List Char) : Problem → Prop
  | .unterminatedText => ∃ quote ∈ rest.head?, Literal.isQuote quote = true
  | .missingFilterName => front.getLast? = some '|' ∧ StartsOutside isWord rest
  | .malformedNumber _ => ∃ c ∈ rest.head?, c = '.' ∨ isWord c = true
  | .unexpectedTerminator found =>
    rest.head? = some found ∧ (found = ',' ∨ isBlank found = true)
  | .unexpectedCharacter found =>
    rest.head? = some found ∧ found ≠ ',' ∧ isBlank found = false
  | .emptySegment => front.getLast? = some '.' ∧ StartsOutside isWord rest
  | .missingArgument filter =>
    (filter.toList ≠ [] ∧ ∀ c ∈ filter.toList, isWord c = true) ∧
      (∃ before given, front = before ++ '|' :: (filter.toList ++ ':' :: given)) ∧
      (∃ body mark blanks, front = body ++ mark :: blanks ∧ (mark = ':' ∨ mark = ',') ∧
        ∀ c ∈ blanks, isBlank c = true) ∧
      rest.head? ∈ [none, some ',', some '|']

/-! ### Texts of the productions -/

namespace Derivation

/-- The text of an operand. -/
def OperandText (text : List Char) : Prop :=
  ∃ form : OperandForm, form.spelling = text

/-- Names with points in between. -/
def NamesText (text : List Char) : Prop :=
  ∃ (first : Name) (others : List Name),
    (first.text ++ others.flatMap fun name ↦ '.' :: name.text) = text

/-- The arguments of a filter, from behind its colon on. -/
def ArgumentsText (multiple : Bool) (text : List Char) : Prop :=
  ∃ (first : ArgumentForm) (others : List ArgumentForm),
    first.text ++ laterArguments others = text ∧ (multiple = true ∨ others = [])

/-- A filter, from behind its bar on. -/
def FilterText (multiple : Bool) (text : List Char) : Prop :=
  ∃ form : FilterForm, form.name.text ++ form.argumentText = text ∧ Scan.Allowed multiple form

/-- Filters, each with its bar. -/
def FiltersText (multiple : Bool) (text : List Char) : Prop :=
  ∃ forms : List FilterForm, forms.flatMap FilterForm.text = text ∧
    ∀ form ∈ forms, Scan.Allowed multiple form

/-- An expression with the blanks before it. -/
def HeadText (multiple : Bool) (text : List Char) : Prop :=
  ∃ (leading : Blanks) (form : OperandForm) (filters : List Char),
    leading.text ++ (form.spelling ++ filters) = text ∧ FiltersText multiple filters

theorem operandText_zero : OperandText ['0'] :=
  ⟨.number (.integer ⟨['0'], List.forall_mem_singleton.2 rfl⟩ (List.cons_ne_nil _ _) (by decide)),
    rfl⟩

theorem isWord_of_mem_x : ∀ c ∈ ['x'], isWord c = true :=
  List.forall_mem_singleton.2 rfl

theorem namesText_x : NamesText ['x'] :=
  ⟨⟨['x'], List.cons_ne_nil _ _, isWord_of_mem_x⟩, [], rfl⟩

theorem NamesText.behind {text : List Char} (name : Name) (htext : NamesText text) :
    NamesText (name.text ++ '.' :: text) := by
  obtain ⟨first, others, rfl⟩ := htext
  exact ⟨name, first :: others, rfl⟩

theorem OperandText.argumentsText {text : List Char} (htext : OperandText text) (multiple : Bool)
    (blanks : Blanks) : ArgumentsText multiple (blanks.text ++ text) := by
  obtain ⟨form, rfl⟩ := htext
  exact ⟨⟨blanks, form⟩, [], by simp [ArgumentForm.text, laterArguments], Or.inr rfl⟩

/-- Where several are allowed, an argument and a comma may stand before arguments. -/
theorem ArgumentsText.behind {text : List Char} (form : ArgumentForm)
    (htext : ArgumentsText true text) : ArgumentsText true (form.text ++ ',' :: text) := by
  obtain ⟨first, others, rfl, -⟩ := htext
  exact ⟨form, first :: others, by simp [laterArguments], Or.inl rfl⟩

/-- A name and a colon may stand before arguments. -/
theorem ArgumentsText.filterText {multiple : Bool} {text : List Char}
    (htext : ArgumentsText multiple text) (name : Name) :
    FilterText multiple (name.text ++ ':' :: text) := by
  obtain ⟨first, others, rfl, hmultiple⟩ := htext
  refine ⟨⟨name, first :: others⟩, rfl, fun hsingle ↦ ?_⟩
  rcases hmultiple with hmany | rfl
  · rw [hsingle] at hmany
    cases hmany
  · exact Nat.le_refl 1

theorem FilterText.filtersText {multiple : Bool} {text : List Char}
    (htext : FilterText multiple text) : FiltersText multiple ('|' :: text) := by
  obtain ⟨form, rfl, hallowed⟩ := htext
  exact ⟨[form], by simp [FilterForm.text], List.forall_mem_singleton.2 hallowed⟩

theorem FiltersText.behind {multiple : Bool} {text : List Char} {form : FilterForm}
    (htext : FiltersText multiple text) (hallowed : Scan.Allowed multiple form) :
    FiltersText multiple (form.text ++ text) := by
  obtain ⟨forms, rfl, hforms⟩ := htext
  exact ⟨form :: forms, rfl, List.forall_mem_cons.2 ⟨hallowed, hforms⟩⟩

theorem filtersText_nil (multiple : Bool) : FiltersText multiple [] :=
  ⟨[], rfl, by simp⟩

end Derivation

/-! ### Stops -/

namespace Scan

/-- A stop at a place of the input, with `lead` as the text before the input. What stands before the
place is the front of a text of the language, and the problem fits the place. Nothing but a comma
ends an expression as long as its parts are being read. -/
inductive StopsIn (language : List Char → Prop) (lead input : List Char) : Stop → Prop where
  | intro (front more : List Char) {rest : List Char} {problem : Problem}
      (input_eq : input = front ++ rest) (goesOn : language (front ++ more))
      (fits : problem.Fits (lead ++ front) rest)
      (comma : ∀ found, problem = .unexpectedTerminator found → found = ',') :
    StopsIn language lead input (.located rest problem)

section StopsIn

variable {language wider : List Char → Prop} {lead consumed input : List Char} {stop : Stop}
  {problem : Problem}

/-- A stop at the very start. -/
theorem StopsIn.here (more : List Char) (hgoesOn : language more)
    (hfits : problem.Fits lead input)
    (hcomma : ∀ found, problem = .unexpectedTerminator found → found = ',') :
    StopsIn language lead input (.located input problem) :=
  .intro [] more (List.nil_append input).symm hgoesOn (by rwa [List.append_nil]) hcomma

/-- A stop behind a text that was read without one. -/
theorem StopsIn.behind {whole : List Char} (hstops : StopsIn language (lead ++ consumed) input stop)
    (hwhole : consumed ++ input = whole)
    (hwider : ∀ text, language text → wider (consumed ++ text)) :
    StopsIn wider lead whole stop := by
  obtain ⟨front, more, rfl, hgoesOn, hfits, hcomma⟩ := hstops
  have hmore := hwider _ hgoesOn
  rw [← List.append_assoc] at hmore hwhole
  rw [List.append_assoc] at hfits
  exact .intro (consumed ++ front) more hwhole.symm hmore hfits hcomma

end StopsIn

end Scan

/-! ### Operands -/

/-- A number that runs on as it should can still be too large. -/
theorem Number.eq_located_of_read {input : List Char} {stop : Stop} (h : read input = .error stop) :
    ∃ flaw, (flaw = .outOfRange ∨ flaw = .tooLarge) ∧
      stop = .located input (.malformedNumber flaw) := by
  unfold read at h
  split at h
  · split at h
    · cases h
      exact ⟨.outOfRange, Or.inl rfl, rfl⟩
    · cases h
  · split at h
    · cases h
    · cases h
      exact ⟨.tooLarge, Or.inr rfl, rfl⟩

/-- A flaw behind a number is a point or a character of words. -/
theorem Number.exists_cons_of_flawBefore? {rest : List Char} {flaw : NumberFlaw}
    (h : flawBefore? rest = some flaw) : ∃ c ∈ rest.head?, c = '.' ∨ isWord c = true := by
  cases rest with
  | nil => cases h
  | cons c tail =>
    refine ⟨c, rfl, ?_⟩
    by_cases hpoint : c = '.'
    · exact Or.inl hpoint
    · rw [flawBefore?, if_neg hpoint] at h
      by_cases hword : isWord c = true
      · exact Or.inr hword
      · rw [if_neg hword] at h
        cases h

namespace Scan

theorem eq_error_of_map_eq_error {α β : Type} {result : Except Stop α} {change : α → β}
    {stop : Stop} (h : result.map change = .error stop) : result = .error stop := by
  cases result with
  | error inner => exact congrArg Except.error (Except.error.inj h)
  | ok value => cases h

/-- Where reading a number stops, the text before the place begins a number, and the problem is as
it says. -/
theorem readWhole_stops {c : Char} {tail : List Char} {stop : Stop}
    (hstart : c.isDigit = true ∨ c = '.') (h : Number.readWhole (c :: tail) = .error stop)
    (lead : List Char) : StopsIn OperandText lead (c :: tail) stop := by
  unfold Number.readWhole at h
  split at h
  · rename_i hread
    cases h
    obtain ⟨flaw, -, rfl⟩ := Number.eq_located_of_read hread
    refine .here ['0'] operandText_zero ⟨c, rfl, ?_⟩ (by rintro _ ⟨⟩)
    rcases hstart with hdigit | hpoint
    · exact Or.inr (isWord_of_isDigit hdigit)
    · exact Or.inl hpoint
  · rename_i value rest hread
    split at h
    · rename_i flaw hflaw
      cases h
      obtain ⟨form, htext, -⟩ := Number.exists_form_of_read hstart hread
      refine .intro form.text [] htext.symm ?_ (Number.exists_cons_of_flawBefore? hflaw)
        (by rintro _ ⟨⟩)
      rw [List.append_nil]
      exact ⟨.number form, rfl⟩
    · cases h

/-- Names stop at a point with no name behind it. -/
theorem readSegments_stops {input : List Char} {stop : Stop}
    (h : Lookup.readSegments input = .error stop) (lead : List Char)
    (hlead : lead.getLast? = some '.') :
    StopsIn NamesText lead input stop := by
  fun_induction Lookup.readSegments input generalizing lead with
  | case1 input hnil =>
    cases h
    exact .here ['x'] namesText_x ⟨hlead, startsOutside_of_takeWhile_eq_nil hnil⟩
      (by rintro _ ⟨⟩)
  | case2 input hne tail htail _ ih =>
    have hread := eq_error_of_map_eq_error h
    have hinput := leadingWord_append_afterWord input
    rw [htail] at hinput
    refine (ih hread (lead ++ (leadingWord input ++ ['.'])) (by simp)).behind
      (by simpa using hinput) fun text htext ↦ ?_
    rw [List.append_assoc]
    exact htext.behind (.leading input hne)
  | case3 => cases h

/-- Behind the first name of a lookup a further one is missing, or else the lookup does not begin
with a name. -/
theorem read_stops {c : Char} {tail : List Char} {stop : Stop} (hdigit : c.isDigit = false)
    (hcomma : c ≠ ',') (hblank : isBlank c = false)
    (h : Lookup.read (c :: tail) = .error stop) (lead : List Char) :
    StopsIn OperandText lead (c :: tail) stop := by
  simp only [Lookup.read, List.head?_cons] at h
  by_cases hword : isWord c = true
  · rw [if_pos hword, Lookup.readSegments_eq] at h
    have hne : leadingWord (c :: tail) ≠ [] := by
      rw [leadingWord, List.takeWhile_cons_of_pos hword]
      exact List.cons_ne_nil _ _
    have hinput := leadingWord_append_afterWord (c :: tail)
    rw [if_neg hne] at h
    split at h
    · rename_i rest hrest
      rw [hrest] at hinput
      refine (readSegments_stops (eq_error_of_map_eq_error h)
        (lead ++ (leadingWord (c :: tail) ++ ['.'])) (by simp)).behind (by simpa using hinput) ?_
      rintro text ⟨first, others, rfl⟩
      refine ⟨.lookup ⟨.leading (c :: tail) hne, first :: others, ?_⟩, ?_⟩
      · intro found hfound
        simp only [Name.leading, leadingWord, List.takeWhile_cons_of_pos hword,
          List.head?_cons, Option.mem_some_iff] at hfound
        rw [← hfound]
        exact hdigit
      · simp [OperandForm.spelling, LookupForm.text, Name.leading]
    · cases h
  · rw [if_neg hword] at h
    cases h
    exact .here ['0'] operandText_zero ⟨rfl, hcomma, hblank⟩ (by rintro _ ⟨⟩)

/-- Where reading an operand stops, the text before the place begins an operand, and the problem is
as it says. -/
theorem operand_stops {c : Char} {tail : List Char} {stop : Stop} (hcomma : c ≠ ',')
    (hblank : isBlank c = false) (h : operand (c :: tail) = .error stop) (lead : List Char) :
    StopsIn OperandText lead (c :: tail) stop := by
  simp only [operand] at h
  split at h
  · rename_i hstart
    exact readWhole_stops (by simpa using hstart) (eq_error_of_map_eq_error h) lead
  rename_i hstart
  split at h
  · rename_i hquote
    split at h
    · cases h
    · cases h
      exact .here ['0'] operandText_zero ⟨c, rfl, hquote⟩ (by rintro _ ⟨⟩)
  · rw [Bool.not_eq_true, Bool.or_eq_false_iff] at hstart
    exact read_stops hstart.1 hcomma hblank (eq_error_of_map_eq_error h) lead

/-! ### Arguments and filters -/

variable {multiple : Bool} {input lead : List Char} {stop : Stop}

/-- What stands before an argument of the filter: its name behind a bar, and the colon or comma that
asks for the argument. -/
structure LeadsArgument (name : Name) (lead : List Char) : Prop where
  named : ∃ before given, lead = before ++ '|' :: (name.text ++ ':' :: given)
  marked : ∃ body mark, lead = body ++ [mark] ∧ (mark = ':' ∨ mark = ',')

theorem LeadsArgument.colon (before : List Char) (name : Name) :
    LeadsArgument name (before ++ '|' :: (name.text ++ [':'])) :=
  ⟨⟨before, [], rfl⟩, before ++ '|' :: name.text, ':', by simp, Or.inl rfl⟩

theorem LeadsArgument.comma {name : Name} (hlead : LeadsArgument name lead) (argument : List Char) :
    LeadsArgument name (lead ++ (argument ++ [','])) := by
  obtain ⟨⟨before, given, rfl⟩, -⟩ := hlead
  refine ⟨⟨before, given ++ (argument ++ [',']), by simp⟩, ?_⟩
  exact ⟨before ++ '|' :: (name.text ++ ':' :: given) ++ argument, ',', by simp, Or.inr rfl⟩

/-- Where an argument is due and none comes, it is missing. -/
theorem LeadsArgument.fits {name : Name} (hlead : LeadsArgument name lead) (blanks : Blanks)
    {rest : List Char} (hrest : rest.head? ∈ [none, some ',', some '|']) :
    (Problem.missingArgument (String.ofList name.text)).Fits (lead ++ blanks.text) rest := by
  obtain ⟨⟨before, given, hnamed⟩, body, mark, hmarked, hmark⟩ := hlead
  simp only [Problem.Fits, String.toList_ofList]
  refine ⟨⟨name.ne_nil, name.isWord_of_mem⟩, ⟨before, given ++ blanks.text, ?_⟩,
    ⟨body, mark, blanks.text, ?_, hmark, blanks.isBlank_of_mem⟩, hrest⟩
  · rw [hnamed]
    simp
  · rw [hmarked]
    simp

/-- Behind an argument, the arguments go on in the same way. -/
theorem arguments_stops {name : Name} (hlead : LeadsArgument name lead)
    (h : arguments multiple (String.ofList name.text) input = .error stop) :
    StopsIn (ArgumentsText multiple) lead input stop := by
  fun_induction arguments multiple (String.ofList name.text) input generalizing lead with
  | case1 input hmissing =>
    cases h
    exact .intro _ ['0'] (leading_append_skipBlanks input).symm
      (operandText_zero.argumentsText multiple _) (hlead.fits _ hmissing) (by rintro _ ⟨⟩)
  | case2 input hstart inner hread =>
    cases h
    obtain ⟨c, tail, hskip⟩ : ∃ c tail, skipBlanks input = c :: tail := by
      cases hskip : skipBlanks input with
      | nil => simp [hskip] at hstart
      | cons c tail => exact ⟨c, tail, rfl⟩
    have hcomma : c ≠ ',' := by
      rintro rfl
      simp [hskip] at hstart
    obtain ⟨hwhole, hblank⟩ := leading_append_cons hskip
    rw [hskip] at hread
    exact (operand_stops hcomma hblank hread _).behind hwhole
      fun text htext ↦ htext.argumentsText multiple _
  | case3 => cases h
  | case4 input hstart value c tail hread hcomma hlt ih =>
    obtain ⟨rfl, rfl⟩ := hcomma
    obtain ⟨form, htext, -⟩ := exists_argument_of_operand hread
    refine (ih (hlead.comma form.text) (eq_error_of_map_eq_error h)).behind
      (by simpa using htext) fun text hmore ↦ ?_
    rw [List.append_assoc]
    exact hmore.behind form
  | case5 => cases h
  | case6 input hstart value c tail hread hcomma hend =>
    cases h
    obtain ⟨form, htext, -⟩ := exists_argument_of_operand hread
    simp only [not_or, Bool.not_eq_true] at hend
    refine .intro form.text [] htext.symm ?_ ⟨rfl, hend.1, hend.2.2⟩ (by rintro _ ⟨⟩)
    exact ⟨form, [], by simp [laterArguments], Or.inr rfl⟩

/-- Where reading a filter stops, the text before the place begins a filter, and the problem is as
it says. -/
theorem filter_stops (before : List Char) (h : filter multiple input = .error stop) :
    StopsIn (FilterText multiple) (before ++ ['|']) input stop := by
  have hinput := leadingWord_append_afterWord input
  unfold filter at h
  simp only at h
  split at h
  · rename_i hnil
    cases h
    refine .here ['x'] ⟨⟨⟨['x'], List.cons_ne_nil _ _, isWord_of_mem_x⟩, []⟩, rfl, ?_⟩ ?_
      (by rintro _ ⟨⟩)
    · exact fun _ ↦ Nat.zero_le 1
    · exact ⟨by simp, startsOutside_of_takeWhile_eq_nil hnil⟩
  rename_i hne
  split at h
  · rename_i rest hrest
    rw [hrest] at hinput
    have hlead : LeadsArgument (.leading input hne)
        (before ++ ['|'] ++ (leadingWord input ++ [':'])) := by
      have hcolon := LeadsArgument.colon before (.leading input hne)
      rwa [List.append_assoc]
    refine (arguments_stops hlead (eq_error_of_map_eq_error h)).behind (by simpa using hinput)
      fun text htext ↦ ?_
    rw [List.append_assoc]
    exact htext.filterText (.leading input hne)
  · cases h

/-- The induction is on the text. Behind a filter, reading stops in the filters that follow. -/
theorem filters_stops (h : filters multiple input = .error stop) (lead : List Char) :
    StopsIn (FiltersText multiple) lead input stop := by
  fun_induction filters multiple input generalizing lead with
  | case1 => cases h
  | case2 rest inner hread =>
    cases h
    exact (filter_stops lead hread).behind rfl fun text htext ↦ htext.filtersText
  | case3 rest fragment after hread _ ih =>
    obtain ⟨form, htext, -, hallowed⟩ := exists_form_of_filter hread
    refine (ih (eq_error_of_map_eq_error h) (lead ++ form.text)).behind ?_
      fun text hmore ↦ hmore.behind hallowed
    rw [FilterForm.text, ← htext]
    simp
  | case4 => cases h
  | case5 c rest hbar hend =>
    cases h
    rw [not_or, Bool.not_eq_true] at hend
    exact .here [] (filtersText_nil multiple) ⟨rfl, hend.1, hend.2⟩ (by rintro _ ⟨⟩)

/-! ### Whole texts -/

theorem eq_ok_of_map_eq_ok {α β : Type} {result : Except Stop α} {change : α → β} {value : β}
    (h : result.map change = .ok value) : ∃ inner, result = .ok inner ∧ change inner = value := by
  cases result with
  | error stop => cases h
  | ok inner => exact ⟨inner, rfl, Except.ok.inj h⟩

/-- Filters end at a comma or at a blank. -/
theorem eq_or_isBlank_of_filters {fragments : List Fragment} {c : Char} {rest : List Char}
    (h : filters multiple input = .ok (fragments, c :: rest)) : c = ',' ∨ isBlank c = true := by
  fun_induction filters multiple input generalizing fragments with
  | case1 => cases h
  | case2 => cases h
  | case3 tail fragment after _ _ ih =>
    obtain ⟨⟨others, left⟩, hothers, heq⟩ := eq_ok_of_map_eq_ok h
    obtain rfl : left = c :: rest := congrArg Prod.snd heq
    exact ih hothers
  | case4 first tail _ hend =>
    cases h
    exact hend
  | case5 => cases h

/-- An expression goes on up to a comma or a blank, or up to the end. -/
theorem eq_or_isBlank_of_head {fragments : List Fragment} {c : Char} {rest : List Char}
    (h : head multiple input = .ok (fragments, c :: rest)) : c = ',' ∨ isBlank c = true := by
  unfold head at h
  split at h
  · cases h
  split at h
  · cases h
  split at h
  · cases h
  split at h
  · cases h
  · obtain ⟨⟨others, left⟩, hothers, heq⟩ := eq_ok_of_map_eq_ok h
    obtain rfl : left = c :: rest := congrArg Prod.snd heq
    exact eq_or_isBlank_of_filters hothers

/-- Where reading an expression stops, it has no text, or the text before the place begins one and
the problem is as it says. -/
theorem head_stops (h : head multiple input = .error stop) :
    (skipBlanks input = [] ∧ stop = .emptyExpression) ∨
      StopsIn (HeadText multiple) [] input stop := by
  have hstart (text : List Char) (htext : OperandText text) :
      HeadText multiple ((Blanks.leading input).text ++ text) := by
    obtain ⟨form, rfl⟩ := htext
    exact ⟨_, form, [], by rw [List.append_nil], filtersText_nil multiple⟩
  unfold head at h
  split at h
  · rename_i hskip
    cases h
    exact Or.inl ⟨hskip, rfl⟩
  rename_i c tail hskip
  obtain ⟨hinput, hblank⟩ := leading_append_cons hskip
  right
  split at h
  · rename_i hcomma
    cases h
    exact .intro _ ['0'] hinput.symm (hstart _ operandText_zero) ⟨rfl, Or.inl hcomma⟩
      (by rintro _ ⟨⟩; exact hcomma)
  rename_i hcomma
  split at h
  · cases h
    exact .intro _ ['0'] hinput.symm (hstart _ operandText_zero)
      ⟨rfl, hcomma, hblank⟩ (by rintro _ ⟨⟩)
  split at h
  · rename_i hread
    cases h
    exact (operand_stops hcomma hblank hread _).behind hinput hstart
  · rename_i value after hread
    obtain ⟨form, htext, -⟩ := exists_form_of_operand hread
    refine (filters_stops (eq_error_of_map_eq_error h)
      ([] ++ ((Blanks.leading input).text ++ form.spelling))).behind ?_ fun text hmore ↦ ?_
    · rw [List.append_assoc, htext, hinput]
    · exact ⟨_, form, text, by rw [List.append_assoc], hmore⟩

/-- A whole text stops inside of its expression, or behind it where more than blanks follow. -/
theorem whole_stops (h : whole multiple input = .error stop) :
    (skipBlanks input = [] ∧ stop = .emptyExpression) ∨ StopsIn (HeadText multiple) [] input stop ∨
      ∃ fragments found rest, head multiple input = .ok (fragments, found :: rest) ∧
        skipBlanks (found :: rest) ≠ [] ∧
        stop = .located (found :: rest) (.unexpectedTerminator found) := by
  unfold whole at h
  split at h
  · rename_i hread
    cases h
    exact (head_stops hread).imp_right Or.inl
  · cases h
  · rename_i fragments found rest hread
    split at h
    · cases h
    · rename_i hskip
      cases h
      exact Or.inr (Or.inr ⟨fragments, found, rest, hread, hskip, rfl⟩)

/-- The text of a whole expression, up to what follows it. -/
theorem exists_headText_of_head {fragments : List Fragment} {rest : List Char}
    (h : head multiple input = .ok (fragments, rest)) :
    ∃ front, input = front ++ rest ∧ HeadText multiple front := by
  obtain ⟨leading, form, forms, htext, -, hallowed⟩ := exists_forms_of_head h
  refine ⟨leading.text ++ (form.spelling ++ forms.flatMap FilterForm.text), ?_,
    leading, form, _, rfl, forms, rfl, hallowed⟩
  rw [← htext]
  simp

/-- Putting the fragments together never fails: a text that cannot be read has a fault in it. -/
theorem expression_eq_error_iff :
    expression multiple input = .error stop ↔ whole multiple input = .error stop := by
  unfold expression
  cases hread : whole multiple input with
  | error inner => simp only [Except.error.injEq]
  | ok fragments =>
    obtain ⟨leading, form, forms, trailing, -, rfl, -⟩ := exists_forms_of_whole hread
    simp [Expression.ofFragments?]

theorem byteSize_eq (text : List Char) : byteSize text = (String.ofList text).utf8ByteSize := by
  induction text with
  | nil => rfl
  | cons c rest ih =>
    rw [byteSize, ih, String.ofList_cons, String.utf8ByteSize_append,
      String.utf8ByteSize_singleton]

end Scan

/-- A text that is an expression up to its end has a derivation. -/
theorem Derivation.HeadText.exists_derivation {options : Options} {text : List Char}
    (htext : HeadText options.multipleArguments text) :
    ∃ derivation : Derivation options, derivation.text = text := by
  obtain ⟨leading, form, filters, rfl, forms, rfl, hallowed⟩ := htext
  refine ⟨⟨leading, form, forms, ⟨[], by simp⟩, fun hsingle filter hfilter ↦
    hallowed filter hfilter hsingle⟩, ?_⟩
  simp [Derivation.text]

namespace Expression

variable {options : Options} {source : String}

/-- A fault of a source is a fault of its text, with its place in bytes. -/
theorem scan_eq_error_iff {error : ScanError} :
    scan options source = .error error ↔
      ∃ stop, Scan.whole options.multipleArguments source.toList = .error stop ∧
        stop.map (Scan.offsetIn source.toList) = error := by
  unfold scan
  constructor
  · intro h
    split at h
    · cases h
    · rename_i stop hread
      exact ⟨stop, Scan.expression_eq_error_iff.1 hread, Except.error.inj h⟩
  · rintro ⟨stop, hread, rfl⟩
    rw [Scan.expression_eq_error_iff.2 hread]

/-- A fault that has a place splits the source there: what stands before it can be continued to a
text that is read, and the problem fits what stands on both sides. -/
theorem exists_place_of_scan {offset : Nat} {problem : Problem}
    (h : scan options source = .error (.located offset problem)) :
    ∃ front rest, source.toList = front ++ rest ∧ (String.ofList front).utf8ByteSize = offset ∧
      problem.Fits front rest ∧
      (∃ more, Derivation.HeadText options.multipleArguments (front ++ more)) ∧
      Scan.whole options.multipleArguments source.toList = .error (.located rest problem) := by
  obtain ⟨stop, hread, hstop⟩ := scan_eq_error_iff.1 h
  have hoffset (front rest : List Char) (hinput : source.toList = front ++ rest) :
      Scan.offsetIn source.toList rest = (String.ofList front).utf8ByteSize := by
    rw [hinput, Scan.offsetIn_append, Scan.byteSize_eq]
  rcases Scan.whole_stops hread with ⟨-, rfl⟩ | hstops | ⟨fragments, found, rest, hhead, -, rfl⟩
  · cases hstop
  · obtain ⟨front, more, hinput, hgoesOn, hfits, -⟩ := hstops
    cases hstop
    exact ⟨front, _, hinput, (hoffset _ _ hinput).symm, hfits, ⟨more, hgoesOn⟩, hread⟩
  · obtain ⟨front, hinput, hfront⟩ := Scan.exists_headText_of_head hhead
    cases hstop
    refine ⟨front, _, hinput, (hoffset _ _ hinput).symm,
      ⟨rfl, Scan.eq_or_isBlank_of_head hhead⟩, ⟨[], ?_⟩, hread⟩
    rwa [List.append_nil]

/-- The fault without a place is that of a blank source. -/
theorem scan_eq_emptyExpression_iff :
    scan options source = .error .emptyExpression ↔ ∀ c ∈ source.toList, isBlank c = true := by
  rw [scan_eq_error_iff]
  constructor
  · rintro ⟨stop, hread, hstop⟩
    rcases Scan.whole_stops hread with ⟨hskip, -⟩ | hstops | ⟨_, found, rest, -, -, rfl⟩
    · exact Scan.isBlank_of_skipBlanks_eq_nil hskip
    · cases hstops
      cases hstop
    · cases hstop
  · intro hblank
    refine ⟨.emptyExpression, ?_, rfl⟩
    have hskip : skipBlanks source.toList = [] := Scan.skipBlanks_blanks ⟨_, hblank⟩
    rw [Scan.whole, Scan.head, hskip]

/-- Every fault tells what is at its place. A source without any content has a fault without a
place. Any other fault is at a character boundary of the source, and its problem fits the characters
before the boundary and behind it. -/
theorem scan_error_place (options : Options) (source : String) :
    (scan options source = .error .emptyExpression ↔ ∀ c ∈ source.toList, isBlank c = true) ∧
    ∀ offset problem, scan options source = .error (.located offset problem) →
      offset ≤ source.utf8ByteSize ∧ (String.Pos.Raw.mk offset).IsValid source ∧
      ∃ front rest, source.toList = front ++ rest ∧
        (String.ofList front).utf8ByteSize = offset ∧ problem.Fits front rest := by
  refine ⟨scan_eq_emptyExpression_iff, fun offset problem h ↦ ?_⟩
  obtain ⟨front, rest, hsource, hoffset, hfits, -, -⟩ := exists_place_of_scan h
  have hsplit : source = .ofList front ++ .ofList rest := by
    rw [← String.ofList_append, ← hsource, String.ofList_toList]
  refine ⟨?_, ?_, front, rest, hsource, hoffset, hfits⟩
  · rw [hsplit, String.utf8ByteSize_append, hoffset]
    exact Nat.le_add_right _ _
  · refine String.Pos.Raw.isValid_iff_exists_append.2 ⟨_, _, hsplit, ?_⟩
    rw [String.rawEndPos, hoffset]

/-- An argument that is missing behind a blank, with a letter of two bytes before it. -/
theorem scan_error_place_join :
    scan {} "'é'|join: |upper" = .error (.located 11 (.missingArgument "join")) ∧
      11 ≤ "'é'|join: |upper".utf8ByteSize ∧
      (String.Pos.Raw.mk 11).IsValid "'é'|join: |upper" ∧
      ∃ front rest, "'é'|join: |upper".toList = front ++ rest ∧
        (String.ofList front).utf8ByteSize = 11 ∧
        (Problem.missingArgument "join").Fits front rest := by
  have hfault : scan {} "'é'|join: |upper" = .error (.located 11 (.missingArgument "join")) := by
    decide +kernel
  exact ⟨hfault, (scan_error_place {} "'é'|join: |upper").2 11 (.missingArgument "join") hfault⟩

end Expression

end Stencil
