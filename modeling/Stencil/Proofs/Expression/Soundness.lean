import Stencil.Proofs.Expression.Completeness

/-!
What is read is derived. Where a reader succeeds, the text it took is the text of a derivation with
the value that it gave, and nothing of the input is lost: `Number.exists_form_of_readWhole`,
`Literal.exists_items_of_read?`, `Lookup.exists_names_of_readSegments`,
`Scan.exists_form_of_operand`, `Scan.exists_forms_of_arguments`, `Scan.exists_forms_of_filters` and
`Scan.exists_derivation`.
-/

set_option autoImplicit false
set_option relaxedAutoImplicit false

namespace Stencil

open Stencil.Derivation Text

/-- The digits at the front of a text. -/
def Derivation.Digits.leading (input : List Char) : Digits :=
  ⟨leadingDigits input, fun _ ↦ eq_true_of_mem_takeWhile⟩

/-- The blanks at the front of a text. -/
def Derivation.Blanks.leading (input : List Char) : Blanks :=
  ⟨input.takeWhile isBlank, fun _ ↦ eq_true_of_mem_takeWhile⟩

/-- A text is its leading blanks and what is behind them. -/
theorem leading_append_skipBlanks (input : List Char) :
    (Blanks.leading input).text ++ skipBlanks input = input :=
  List.takeWhile_append_dropWhile

/-- Where something stands behind the blanks at the front of a text, it starts with none. -/
theorem leading_append_cons {input rest : List Char} {c : Char}
    (hskip : skipBlanks input = c :: rest) :
    (Blanks.leading input).text ++ c :: rest = input ∧ isBlank c = false := by
  have hstart : StartsOutside isBlank (skipBlanks input) := startsOutside_dropWhile isBlank input
  rw [hskip] at hstart
  refine ⟨?_, startsOutside_cons.1 hstart⟩
  rw [← hskip]
  exact leading_append_skipBlanks input

/-- The word at the front of a text that starts with one. -/
def Derivation.Name.leading (input : List Char) (hne : leadingWord input ≠ []) : Name :=
  ⟨leadingWord input, hne, fun _ ↦ eq_true_of_mem_takeWhile⟩

/-! ### Operands -/

namespace Number

/-- What is read as a number is the text of a number form. -/
theorem exists_form_of_read {c : Char} {tail rest : List Char} {value : Number}
    (hstart : c.isDigit = true ∨ c = '.') (h : read (c :: tail) = .ok (value, rest)) :
    ∃ form : NumberForm, form.text ++ rest = c :: tail ∧ form.value = value := by
  have hinput := leadingDigits_append_afterDigits (c :: tail)
  unfold read at h
  split at h
  · rename_i behind hpoint
    have hvalue := decimalValue_eq (.leading (c :: tail)) (.leading behind)
    simp only [Digits.leading] at hvalue
    rcases ofDecimal_finite_or_infinite (leadingDigits (c :: tail)) (leadingDigits behind) with
      ⟨rank, hfinite⟩ | hinfinite
    · simp only [hfinite, Except.ok.injEq, Prod.mk.injEq] at h
      obtain ⟨rfl, rfl⟩ := h
      refine ⟨.decimal (.leading (c :: tail)) (.leading behind) ⟨rank, hvalue.trans hfinite⟩,
        ?_, ?_⟩
      · rw [hpoint, ← leadingDigits_append_afterDigits behind] at hinput
        rw [NumberForm.text, List.append_assoc]
        exact hinput
      · exact congrArg Number.decimal (hvalue.trans hfinite)
    · simp [hinfinite] at h
  · rename_i hpoint
    split at h
    · rename_i hbounded
      simp only [Except.ok.injEq, Prod.mk.injEq] at h
      obtain ⟨rfl, rfl⟩ := h
      have hne : leadingDigits (c :: tail) ≠ [] := by
        rcases hstart with hdigit | rfl
        · simp [leadingDigits, hdigit]
        · exact (hpoint tail (by simp [afterDigits, Char.isDigit])).elim
      exact ⟨.integer (.leading (c :: tail)) hne hbounded, hinput, rfl⟩
    · cases h

theorem exists_form_of_readWhole {c : Char} {tail rest : List Char} {value : Number}
    (hstart : c.isDigit = true ∨ c = '.') (h : readWhole (c :: tail) = .ok (value, rest)) :
    ∃ form : NumberForm, form.text ++ rest = c :: tail ∧ form.value = value := by
  unfold readWhole at h
  split at h
  · cases h
  · rename_i hread
    split at h
    · cases h
    · cases h
      exact exists_form_of_read hstart hread

end Number

/-- What is read up to a closing quote are items. -/
theorem Literal.exists_items_of_read? {quote : Char} {input value rest : List Char}
    (h : Literal.read? quote input = some (value, rest)) :
    ∃ items : List QuotedItem, (∀ c, .plain c ∈ items → c ≠ quote ∧ c ≠ '\\') ∧
      items.flatMap QuotedItem.text ++ quote :: rest = input ∧
      items.flatMap QuotedItem.value = value := by
  fun_induction Literal.read? quote input generalizing value rest with
  | case1 c tail ih =>
    obtain ⟨reading, hread, heq⟩ := Option.map_eq_some_iff.1 h
    cases heq
    obtain ⟨items, hplain, htext, hvalue⟩ := ih hread
    refine ⟨.escaped c :: items, fun other hother ↦ hplain other (by simpa using hother), ?_, ?_⟩
    · rw [← htext]
      rfl
    · rw [List.flatMap_cons, hvalue, unescape_eq]
  | case2 tail =>
    cases h
    exact ⟨[], by simp, rfl, rfl⟩
  | case3 c tail hpair hne ih =>
    obtain ⟨reading, hread, heq⟩ := Option.map_eq_some_iff.1 h
    cases heq
    obtain ⟨items, hplain, htext, hvalue⟩ := ih hread
    have hbackslash : c ≠ '\\' := by
      rintro rfl
      cases tail with
      | nil => cases hread
      | cons second tail => exact hpair second tail rfl rfl
    refine ⟨.plain c :: items, ?_, ?_, ?_⟩
    · intro other hother
      rcases List.mem_cons.1 hother with heq | hmem
      · cases heq
        exact ⟨hne, hbackslash⟩
      · exact hplain other hmem
    · rw [← htext]
      rfl
    · rw [List.flatMap_cons, hvalue]
      rfl
  | case4 => cases h

/-- What is read as a path are names with points between them. -/
theorem Lookup.exists_names_of_readSegments {input rest : List Char} {path : List String}
    (h : Lookup.readSegments input = .ok (path, rest)) :
    ∃ first others,
      (first.text ++ others.flatMap fun name : Name ↦ '.' :: name.text) ++ rest = input ∧
      ((first :: others).map fun name ↦ String.ofList name.text) = path := by
  fun_induction Lookup.readSegments input generalizing path rest with
  | case1 => cases h
  | case2 input hne tail htail _ ih =>
    cases hread : Lookup.readSegments tail with
    | error stop => simp [hread, Except.map] at h
    | ok reading =>
      simp only [hread, Except.map, Except.ok.injEq, Prod.mk.injEq] at h
      obtain ⟨first, others, htext, hpath⟩ := ih hread
      refine ⟨.leading input hne, first :: others, ?_, ?_⟩
      · rw [← h.2, List.flatMap_cons, List.append_assoc, List.cons_append, List.cons_append, htext,
          ← htail]
        exact leadingWord_append_afterWord input
      · rw [← h.1, ← hpath]
        rfl
  | case3 input hne _ =>
    simp only [Except.ok.injEq, Prod.mk.injEq] at h
    refine ⟨.leading input hne, [], ?_, h.1⟩
    rw [← h.2, List.flatMap_nil, List.append_nil]
    exact leadingWord_append_afterWord input

/-- What is read as a lookup is the text of a lookup form. -/
theorem Lookup.exists_form_of_read {c : Char} {tail rest : List Char} {path : List String}
    (hstart : c.isDigit = false) (h : Lookup.read (c :: tail) = .ok (path, rest)) :
    ∃ form : LookupForm, form.text ++ rest = c :: tail ∧ form.value = path := by
  simp only [Lookup.read, List.head?_cons] at h
  split at h
  · obtain ⟨first, others, htext, hpath⟩ := Lookup.exists_names_of_readSegments h
    have hfirst : ∀ other ∈ first.text.head?, other.isDigit = false := by
      intro other hother
      obtain ⟨front, hfront⟩ := List.head?_eq_some_iff.1 hother
      rw [hfront, List.cons_append, List.cons_append, List.cons.injEq] at htext
      rw [htext.1]
      exact hstart
    exact ⟨⟨first, others, hfirst⟩, htext, hpath⟩
  · cases h

namespace Scan

/-- What is read as an operand is the text of an operand form. -/
theorem exists_form_of_operand {input rest : List Char} {value : Operand}
    (h : operand input = .ok (value, rest)) :
    ∃ form : OperandForm, form.spelling ++ rest = input ∧ form.value = value := by
  unfold operand at h
  split at h
  · cases h
  rename_i c tail
  split at h
  · rename_i hstart
    cases hread : Number.readWhole (c :: tail) with
    | error stop => simp [hread, Except.map] at h
    | ok reading =>
      simp only [hread, Except.map, Except.ok.injEq, Prod.mk.injEq] at h
      obtain ⟨rfl, rfl⟩ := h
      obtain ⟨form, htext, hvalue⟩ :=
        Number.exists_form_of_readWhole (by simpa using hstart) hread
      exact ⟨.number form, htext, congrArg Operand.number hvalue⟩
  rename_i hstart
  split at h
  · rename_i hquote
    split at h
    · rename_i hread
      simp only [Except.ok.injEq, Prod.mk.injEq] at h
      obtain ⟨rfl, rfl⟩ := h
      obtain ⟨items, hplain, htext, hvalue⟩ := Literal.exists_items_of_read? hread
      refine ⟨.text ⟨c, items, (Literal.isQuote_iff c).1 hquote, hplain⟩, ?_, ?_⟩
      · rw [← htext]
        simp [OperandForm.spelling, TextForm.text]
      · simp [OperandForm.value, TextForm.value, hvalue]
    · cases h
  · cases hread : Lookup.read (c :: tail) with
    | error stop => simp [hread, Except.map] at h
    | ok reading =>
      simp only [hread, Except.map, Except.ok.injEq, Prod.mk.injEq] at h
      obtain ⟨rfl, rfl⟩ := h
      have hdigit : c.isDigit = false := by
        rw [Bool.not_eq_true, Bool.or_eq_false_iff] at hstart
        exact hstart.1
      obtain ⟨form, htext, hvalue⟩ := Lookup.exists_form_of_read hdigit hread
      exact ⟨.lookup form, htext, congrArg Operand.lookup hvalue⟩

/-! ### Arguments and filters -/

variable {multiple : Bool} {input rest : List Char}

theorem exists_argument_of_operand {value : Operand}
    (h : operand (skipBlanks input) = .ok (value, rest)) :
    ∃ form : ArgumentForm, form.text ++ rest = input ∧ form.operand.value = value := by
  obtain ⟨form, htext, hvalue⟩ := exists_form_of_operand h
  refine ⟨⟨.leading input, form⟩, ?_, hvalue⟩
  rw [ArgumentForm.text, List.append_assoc, htext]
  exact leading_append_skipBlanks input

/-- What is read as arguments are arguments with commas between them. -/
theorem exists_forms_of_arguments {name : String} {fragments : List Fragment}
    (h : arguments multiple name input = .ok (fragments, rest)) :
    ∃ first others, first.text ++ (laterArguments others ++ rest) = input ∧
      fragments = (first :: others).map (fun form ↦ .operand form.operand.value) ∧
      (multiple = true ∨ others = []) := by
  fun_induction arguments multiple name input generalizing fragments rest with
  | case1 => cases h
  | case2 => cases h
  | case3 input _ value hread =>
    cases h
    obtain ⟨form, htext, rfl⟩ := exists_argument_of_operand hread
    exact ⟨form, [], htext, rfl, Or.inr rfl⟩
  | case4 input _ value c tail hread hcomma _ ih =>
    obtain ⟨rfl, rfl⟩ := hcomma
    cases hmore : arguments true name tail with
    | error stop => simp [hmore, Except.map] at h
    | ok reading =>
      simp only [hmore, Except.map, Except.ok.injEq, Prod.mk.injEq] at h
      obtain ⟨rfl, rfl⟩ := h
      obtain ⟨form, htext, rfl⟩ := exists_argument_of_operand hread
      obtain ⟨second, others, hothers, hfragments, -⟩ := ih hmore
      refine ⟨form, second :: others, ?_, ?_, Or.inl rfl⟩
      · rw [← htext, ← hothers]
        simp [laterArguments]
      · rw [hfragments]
        rfl
  | case5 input _ value c tail hread _ _ =>
    cases h
    obtain ⟨form, htext, rfl⟩ := exists_argument_of_operand hread
    exact ⟨form, [], htext, rfl, Or.inr rfl⟩
  | case6 => cases h

/-- What is read as a filter is the text of a filter form that is allowed. -/
theorem exists_form_of_filter {fragment : Fragment}
    (h : filter multiple input = .ok (fragment, rest)) :
    ∃ form : FilterForm, form.name.text ++ (form.argumentText ++ rest) = input ∧
      fragment = .filter form.value ∧ Allowed multiple form := by
  have hinput := leadingWord_append_afterWord input
  unfold filter at h
  simp only at h
  split at h
  · cases h
  rename_i hne
  split at h
  · rename_i tail htail
    cases hread : arguments multiple (String.ofList (leadingWord input)) tail with
    | error stop => simp [hread, Except.map] at h
    | ok reading =>
      simp only [hread, Except.map, Except.ok.injEq, Prod.mk.injEq] at h
      obtain ⟨rfl, rfl⟩ := h
      obtain ⟨first, others, htext, hfragments, hmultiple⟩ := exists_forms_of_arguments hread
      refine ⟨⟨.leading input hne, first :: others⟩, ?_, ?_, ?_⟩
      · rw [htail, ← htext] at hinput
        refine Eq.trans ?_ hinput
        simp [FilterForm.argumentText, Name.leading]
      · rw [hfragments, List.filterMap_map]
        simp [FilterForm.value, Name.leading, Function.comp_def]
      · intro hsingle
        rcases hmultiple with hmany | rfl
        · rw [hsingle] at hmany
          cases hmany
        · exact Nat.le_refl 1
  · simp only [Except.ok.injEq, Prod.mk.injEq] at h
    obtain ⟨rfl, rfl⟩ := h
    exact ⟨⟨.leading input hne, []⟩, hinput, rfl, fun _ ↦ Nat.zero_le 1⟩

/-- What is read as filters are the texts of filter forms that are allowed. -/
theorem exists_forms_of_filters {fragments : List Fragment}
    (h : filters multiple input = .ok (fragments, rest)) :
    ∃ forms : List FilterForm, forms.flatMap FilterForm.text ++ rest = input ∧
      fragments = forms.map (fun form ↦ .filter form.value) ∧
      ∀ form ∈ forms, Allowed multiple form := by
  fun_induction filters multiple input generalizing fragments rest with
  | case1 =>
    cases h
    exact ⟨[], rfl, rfl, by simp⟩
  | case2 => cases h
  | case3 tail fragment after hread _ ih =>
    cases hmore : filters multiple after with
    | error stop => simp [hmore, Except.map] at h
    | ok reading =>
      simp only [hmore, Except.map, Except.ok.injEq, Prod.mk.injEq] at h
      obtain ⟨rfl, rfl⟩ := h
      obtain ⟨form, htext, rfl, hallowed⟩ := exists_form_of_filter hread
      obtain ⟨forms, hforms, hfragments, hothers⟩ := ih hmore
      refine ⟨form :: forms, ?_, ?_, ?_⟩
      · rw [← htext, ← hforms]
        simp [FilterForm.text]
      · rw [hfragments]
        rfl
      · exact List.forall_mem_cons.2 ⟨hallowed, hothers⟩
  | case4 =>
    cases h
    exact ⟨[], rfl, rfl, by simp⟩
  | case5 => cases h

/-! ### Whole texts -/

/-- What is read as an expression are blanks, an operand form and filter forms. -/
theorem exists_forms_of_head {fragments : List Fragment}
    (h : head multiple input = .ok (fragments, rest)) :
    ∃ (leading : Blanks) (form : OperandForm) (forms : List FilterForm),
      leading.text ++ (form.spelling ++ (forms.flatMap FilterForm.text ++ rest)) = input ∧
      fragments = .operand form.value :: forms.map (fun form ↦ .filter form.value) ∧
      ∀ form ∈ forms, Allowed multiple form := by
  have hinput := leading_append_skipBlanks input
  unfold head at h
  split at h
  · cases h
  rename_i c tail hskip
  split at h
  · cases h
  split at h
  · cases h
  split at h
  · cases h
  rename_i value after hread
  cases hmore : filters multiple after with
  | error stop => simp [hmore, Except.map] at h
  | ok reading =>
    simp only [hmore, Except.map, Except.ok.injEq, Prod.mk.injEq] at h
    obtain ⟨rfl, rfl⟩ := h
    obtain ⟨form, htext, rfl⟩ := exists_form_of_operand hread
    obtain ⟨forms, hforms, hfragments, hallowed⟩ := exists_forms_of_filters hmore
    refine ⟨.leading input, form, forms, ?_, by rw [hfragments], hallowed⟩
    rw [hforms, htext, ← hskip]
    exact hinput

theorem isBlank_of_skipBlanks_eq_nil (h : skipBlanks input = []) :
    ∀ c ∈ input, isBlank c = true := by
  intro c hc
  have hall := leading_append_skipBlanks input
  rw [h, List.append_nil] at hall
  rw [← hall] at hc
  exact (Blanks.leading input).isBlank_of_mem c hc

/-- What is read as a whole are blanks, an operand form, filter forms and blanks. -/
theorem exists_forms_of_whole {fragments : List Fragment}
    (h : whole multiple input = .ok fragments) :
    ∃ (leading : Blanks) (form : OperandForm) (forms : List FilterForm) (trailing : Blanks),
      leading.text ++ (form.spelling ++ (forms.flatMap FilterForm.text ++ trailing.text)) = input ∧
      fragments = .operand form.value :: forms.map (fun form ↦ .filter form.value) ∧
      ∀ form ∈ forms, Allowed multiple form := by
  unfold whole at h
  split at h
  · cases h
  · rename_i hread
    cases h
    obtain ⟨leading, form, forms, htext, hfragments, hallowed⟩ := exists_forms_of_head hread
    exact ⟨leading, form, forms, ⟨[], by simp⟩, htext, hfragments, hallowed⟩
  · rename_i found tail hread
    split at h
    · rename_i hskip
      cases h
      obtain ⟨leading, form, forms, htext, hfragments, hallowed⟩ := exists_forms_of_head hread
      exact ⟨leading, form, forms, ⟨found :: tail, isBlank_of_skipBlanks_eq_nil hskip⟩, htext,
        hfragments, hallowed⟩
    · cases h

/-- Whatever is read as an expression is derived, with that expression as its tree. -/
theorem exists_derivation {options : Options} {tree : Expression}
    (h : expression options.multipleArguments input = .ok tree) :
    ∃ derivation : Derivation options, derivation.text = input ∧ derivation.tree = tree := by
  unfold expression at h
  split at h
  · cases h
  rename_i hread
  obtain ⟨leading, form, forms, trailing, htext, rfl, hallowed⟩ := exists_forms_of_whole hread
  refine ⟨⟨leading, form, forms, trailing, fun hsingle filter hfilter ↦
    hallowed filter hfilter hsingle⟩, ?_, ?_⟩
  · rw [← htext]
    simp [Derivation.text]
  · have hfragments : .operand form.value :: forms.map (fun form ↦ .filter form.value) =
        (⟨form.value, forms.map FilterForm.value⟩ : Expression).fragments := by
      simp [Expression.fragments]
    simp only [hfragments, Expression.ofFragments?_fragments, Except.ok.injEq] at h
    exact h

end Scan

/-- A source denotes what its text is read as. -/
theorem Expression.scan_eq_ok_iff {options : Options} {source : String} {tree : Expression} :
    Expression.scan options source = .ok tree ↔
      Scan.expression options.multipleArguments source.toList = .ok tree := by
  unfold Expression.scan
  split <;> rename_i hread <;> simp [hread]

end Stencil
