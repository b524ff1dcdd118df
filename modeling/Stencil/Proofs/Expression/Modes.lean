import Stencil.Proofs.Expression.Soundness

/-!
Two ways of reading. Where a filter takes one argument only, a comma behind an argument ends the
expression, as in `name|slice:1,3`; where it takes several, the comma parts them. The two ways go in
step up to the first such comma (`Scan.whole_single`), and at that comma the first of them fails. So
a source that is read with one argument to a filter is read in the same way with several, and what
is read with several but not with one is what has a separating comma, the first of which is the
place of the fault (`Expression.scan_single`).
-/

set_option autoImplicit false
set_option relaxedAutoImplicit false

namespace Stencil

open Stencil.Derivation Text

namespace Scan

/-! ### Runs that stop at a comma -/

/-- A run that succeeds and leaves a text that begins with a comma. -/
def StopsAtComma {α : Type} (result : Except Stop (α × List Char)) : Prop :=
  ∃ value rest, result = .ok (value, ',' :: rest)

theorem StopsAtComma.map {α β : Type} {result : Except Stop (α × List Char)}
    (hstops : StopsAtComma result) (describe : α → β) :
    StopsAtComma (result.map fun reading ↦ (describe reading.1, reading.2)) := by
  obtain ⟨value, rest, rfl⟩ := hstops
  exact ⟨describe value, rest, rfl⟩

/-- The two ways of reading differ at a comma behind an argument and nowhere else. -/
theorem arguments_single (name : String) (input : List Char) :
    arguments false name input = arguments true name input ∨
      StopsAtComma (arguments false name input) := by
  rw [arguments_eq false, arguments_eq true]
  by_cases hmissing : (skipBlanks input).head? ∈ [none, some ',', some '|']
  · rw [if_pos hmissing, if_pos hmissing]
    exact Or.inl rfl
  rw [if_neg hmissing, if_neg hmissing]
  rcases operand (skipBlanks input) with stop | ⟨value, _ | ⟨c, rest⟩⟩
  · exact Or.inl rfl
  · exact Or.inl rfl
  by_cases hcomma : c = ','
  · subst hcomma
    exact Or.inr ⟨[.operand value], rest, by simp⟩
  · exact Or.inl (by simp [hcomma])

/-- With one argument to a filter, a filter is read as with several, or reading stops at a comma. -/
theorem filter_single (input : List Char) :
    filter false input = filter true input ∨ StopsAtComma (filter false input) := by
  unfold filter
  simp only
  split
  · exact Or.inl rfl
  split
  · rename_i rest _
    rcases arguments_single (String.ofList (leadingWord input)) rest with heq | hstops
    · exact Or.inl (by rw [heq])
    · exact Or.inr (hstops.map fun fragments ↦
        Fragment.filter ⟨.ofList (leadingWord input), fragments.filterMap Fragment.operand?⟩)
  · exact Or.inl rfl

theorem filters_comma (multiple : Bool) (rest : List Char) :
    filters multiple (',' :: rest) = .ok ([], ',' :: rest) := by
  rw [filters_cons, if_neg (by decide), if_pos (Or.inl rfl)]

/-- The induction is on the text. A filter that stops at a comma is the last one that is read. -/
theorem filters_single (input : List Char) :
    filters false input = filters true input ∨ StopsAtComma (filters false input) := by
  fun_induction filters true input with
  | case1 => exact Or.inl (by rw [filters])
  | case2 rest stop hread =>
    rcases filter_single rest with heq | ⟨fragment, after, hstops⟩
    · refine Or.inl ?_
      rw [filters_cons, if_pos rfl, heq, hread]
    · refine Or.inr ⟨[fragment], after, ?_⟩
      rw [filters_cons, if_pos rfl, hstops]
      simp only [filters_comma]
      rfl
  | case3 rest fragment after hread _ ih =>
    rcases filter_single rest with heq | ⟨found, behind, hstops⟩
    · rw [filters_cons, if_pos rfl, heq, hread]
      rcases ih with heq | hstops
      · exact Or.inl (by simp only [heq])
      · exact Or.inr (hstops.map (fragment :: ·))
    · refine Or.inr ⟨[found], behind, ?_⟩
      rw [filters_cons, if_pos rfl, hstops]
      simp only [filters_comma]
      rfl
  | case4 c rest hbar hend => exact Or.inl (by rw [filters_cons, if_neg hbar, if_pos hend])
  | case5 c rest hbar hend => exact Or.inl (by rw [filters_cons, if_neg hbar, if_neg hend])

/-- With one argument to a filter, an expression is read as with several, or reading stops at a
comma. -/
theorem head_single (input : List Char) :
    head false input = head true input ∨ StopsAtComma (head false input) := by
  unfold head
  split
  · exact Or.inl rfl
  split
  · exact Or.inl rfl
  split
  · exact Or.inl rfl
  split
  · exact Or.inl rfl
  · rename_i value after _
    rcases filters_single after with heq | hstops
    · exact Or.inl (by rw [heq])
    · exact Or.inr (hstops.map (.operand value :: ·))

theorem skipBlanks_comma (rest : List Char) : skipBlanks (',' :: rest) = ',' :: rest :=
  dropWhile_eq_self (startsOutside_cons.2 (by decide))

/-- A comma that ends the expression is a fault. -/
theorem whole_eq_error_of_head {multiple : Bool} {input rest : List Char}
    {fragments : List Fragment} (hhead : head multiple input = .ok (fragments, ',' :: rest)) :
    whole multiple input = .error (.located (',' :: rest) (.unexpectedTerminator ',')) := by
  simp only [whole, hhead, skipBlanks_comma]
  rfl

/-- With one argument to a filter, a text is read as with several, or there is a comma too much. -/
theorem whole_single (input : List Char) :
    whole false input = whole true input ∨
      ∃ rest, whole false input = .error (.located (',' :: rest) (.unexpectedTerminator ',')) := by
  rcases head_single input with heq | ⟨fragments, rest, hstops⟩
  · exact Or.inl (by rw [whole, whole, heq])
  · exact Or.inr ⟨rest, whole_eq_error_of_head hstops⟩

end Scan

/-! ### The first comma between arguments -/

namespace Derivation

variable {options : Options}

/-- The front of the text up to the first comma between arguments: the end of the first argument of
the first filter that has several. -/
inductive FirstSeparated (derivation : Derivation options) : List Char → Prop where
  | intro (earlier : List FilterForm) (name : Name) (first second : ArgumentForm)
      (others : List ArgumentForm) (later : List FilterForm)
      (filters_eq : derivation.filters = earlier ++ ⟨name, first :: second :: others⟩ :: later)
      (length_le : ∀ form ∈ earlier, form.arguments.length ≤ 1) :
    derivation.FirstSeparated (derivation.leading.text ++ (derivation.operand.spelling ++
      (earlier.flatMap FilterForm.text ++ '|' :: (name.text ++ ':' :: first.text))))

/-- Where a filter has several arguments, there is a first one that has. -/
theorem exists_firstSeparated {derivation : Derivation options} {form : FilterForm}
    (hform : form ∈ derivation.filters) (hseveral : 2 ≤ form.arguments.length) :
    ∃ front, derivation.FirstSeparated front := by
  have hsome : (derivation.filters.find? fun form ↦ decide (2 ≤ form.arguments.length)).isSome := by
    rw [List.find?_isSome]
    exact ⟨form, hform, decide_eq_true hseveral⟩
  obtain ⟨⟨name, arguments⟩, hfound⟩ := Option.isSome_iff_exists.1 hsome
  obtain ⟨hlength, earlier, later, hfilters, hearlier⟩ := List.find?_eq_some_iff_append.1 hfound
  have htwo : 2 ≤ arguments.length := of_decide_eq_true hlength
  match arguments, htwo with
  | first :: second :: others, _ =>
    refine ⟨_, .intro earlier name first second others later hfilters fun other hother ↦ ?_⟩
    have hfew := hearlier other hother
    rw [Bool.not_eq_true', decide_eq_false_iff_not] at hfew
    omega

/-- Behind that front the text goes on with the comma, and with one argument to a filter reading
stops there. -/
theorem FirstSeparated.exists_head {derivation : Derivation options} {front : List Char}
    (hfront : derivation.FirstSeparated front) :
    ∃ fragments rest, derivation.text = front ++ ',' :: rest ∧
      Scan.head false derivation.text = .ok (fragments, ',' :: rest) := by
  obtain ⟨earlier, name, first, second, others, later, hfilters, hearlier⟩ := hfront
  let read : List FilterForm := earlier ++ [FilterForm.mk name [first]]
  obtain ⟨rest, htext⟩ : ∃ rest, derivation.text = derivation.leading.text ++
      (derivation.operand.spelling ++ (read.flatMap FilterForm.text ++ ',' :: rest)) := by
    refine ⟨second.text ++ (laterArguments others ++
      (later.flatMap FilterForm.text ++ derivation.trailing.text)), ?_⟩
    rw [text, hfilters]
    simp [read, FilterForm.text, FilterForm.argumentText, laterArguments]
  have hallowed : ∀ form ∈ read, Scan.Allowed false form := by
    intro form hform _
    rcases List.mem_append.1 hform with hform | hform
    · exact hearlier form hform
    · rw [List.mem_singleton.1 hform]
      exact Nat.le_refl 1
  have hrest : Scan.EndsFilters false (',' :: rest) := by
    rintro c ⟨⟩
    exact Or.inr ⟨rfl, rfl⟩
  have hhead := Scan.head_text derivation.leading derivation.operand hallowed hrest
  rw [← htext] at hhead
  refine ⟨_, rest, ?_, hhead⟩
  rw [htext]
  simp [read, FilterForm.text, FilterForm.argumentText, laterArguments]

end Derivation

/-! ### One source in two ways -/

/-- The options with one argument to a filter at most. -/
def Options.single (options : Options) : Options :=
  { options with multipleArguments := false }

/-- The options with any number of arguments to a filter. -/
def Options.several (options : Options) : Options :=
  { options with multipleArguments := true }

namespace Expression

variable {options : Options} {source : String}

/-- A run that stops at a comma is a fault at the offset of the comma. -/
theorem scan_eq_error_of_whole {front rest : List Char}
    (hsource : source.toList = front ++ ',' :: rest)
    (hwhole : Scan.whole options.multipleArguments source.toList =
      .error (.located (',' :: rest) (.unexpectedTerminator ','))) :
    scan options source = .error (.located (Scan.byteSize front) (.unexpectedTerminator ',')) := by
  have hoffset : Scan.offsetIn source.toList (',' :: rest) = Scan.byteSize front := by
    rw [hsource, Scan.offsetIn_append]
  simp only [scan, Scan.expression, hwhole, Fault.map, hoffset]

/-- With one argument to a filter, a source denotes the same as with several, or there is a comma
too much. -/
theorem scan_single_eq_or (options : Options) (source : String) :
    scan options.single source = scan options.several source ∨
      ∃ offset, scan options.single source =
        .error (.located offset (.unexpectedTerminator ',')) := by
  rcases Scan.whole_single source.toList with heq | ⟨rest, hstops⟩
  · refine Or.inl ?_
    simp only [scan, Scan.expression, Options.single, Options.several, heq]
  · refine Or.inr ⟨Scan.offsetIn source.toList (',' :: rest), ?_⟩
    simp only [scan, Scan.expression, Options.single, hstops, Fault.map]

/-- What can be read with one argument to a filter is read the same with several. -/
theorem scan_several_of_single {tree : Expression} (hread : scan options.single source = .ok tree) :
    scan options.several source = .ok tree := by
  rcases scan_single_eq_or options source with heq | ⟨offset, hfault⟩
  · rw [← heq, hread]
  · rw [hread] at hfault
    cases hfault

/-- What is read with several arguments to a filter, but has no more than one to each, is read the
same with one. -/
theorem scan_single_of_several {tree : Expression} (hread : scan options.several source = .ok tree)
    (hfew : ∀ call ∈ tree.filters, call.arguments.length ≤ 1) :
    scan options.single source = .ok tree := by
  obtain ⟨derivation, htext, rfl⟩ := Scan.exists_derivation (scan_eq_ok_iff.1 hread)
  have hlength : ∀ form ∈ derivation.filters, form.arguments.length ≤ 1 := by
    intro form hform
    simpa [FilterForm.value] using hfew _ (List.mem_map_of_mem hform)
  let same : Derivation options.single :=
    ⟨derivation.leading, derivation.operand, derivation.filters, derivation.trailing,
      fun _ ↦ hlength⟩
  have hsame : same.text = source.toList := htext
  rw [scan_eq_ok_iff, ← hsame]
  exact Scan.expression_text same

/-- Where some filter has several arguments, there is a first comma between two of them. -/
theorem exists_firstSeparated_of_several {tree : Expression} {call : FilterCall}
    (hread : scan options.several source = .ok tree) (hcall : call ∈ tree.filters)
    (hseveral : 2 ≤ call.arguments.length) :
    ∃ (derivation : Derivation options.several) (front rest : List Char),
      derivation.text = source.toList ∧ derivation.tree = tree ∧ derivation.FirstSeparated front ∧
      source.toList = front ++ ',' :: rest ∧
      scan options.single source =
        .error (.located (Scan.byteSize front) (.unexpectedTerminator ',')) := by
  obtain ⟨derivation, htext, rfl⟩ := Scan.exists_derivation (scan_eq_ok_iff.1 hread)
  obtain ⟨form, hform, rfl⟩ := List.mem_map.1 hcall
  have htwo : 2 ≤ form.arguments.length := by simpa [FilterForm.value] using hseveral
  obtain ⟨front, hfront⟩ := Derivation.exists_firstSeparated hform htwo
  obtain ⟨fragments, rest, hsplit, hhead⟩ := hfront.exists_head
  rw [htext] at hsplit hhead
  exact ⟨derivation, front, rest, htext, rfl, hfront, hsplit,
    scan_eq_error_of_whole hsplit (Scan.whole_eq_error_of_head hhead)⟩

/-- One source read with one argument to a filter at most and with any number of them. What is read
in the first way is read in the second. What is read in the second way is read in the first where no
filter has several arguments, and elsewhere the fault is the comma behind the first argument of the
first filter that has. A fault in the second way is one in the first, and any fault in the first but
a comma is the same fault in the second. -/
theorem scan_single (options : Options) (source : String) :
    (∀ tree, scan options.single source = .ok tree → scan options.several source = .ok tree) ∧
    (∀ tree, scan options.several source = .ok tree →
      (∀ call ∈ tree.filters, call.arguments.length ≤ 1) →
      scan options.single source = .ok tree) ∧
    (∀ tree, scan options.several source = .ok tree →
      (∃ call ∈ tree.filters, 2 ≤ call.arguments.length) →
      ∃ (derivation : Derivation options.several) (front rest : List Char),
        derivation.text = source.toList ∧ derivation.tree = tree ∧
        derivation.FirstSeparated front ∧ source.toList = front ++ ',' :: rest ∧
        scan options.single source =
          .error (.located (Scan.byteSize front) (.unexpectedTerminator ','))) ∧
    (∀ error, scan options.several source = .error error →
      ∃ other, scan options.single source = .error other) ∧
    ∀ error, scan options.single source = .error error →
      (∀ offset, error ≠ .located offset (.unexpectedTerminator ',')) →
      scan options.several source = .error error := by
  refine ⟨fun tree ↦ scan_several_of_single, fun tree ↦ scan_single_of_several, ?_, ?_, ?_⟩
  · rintro tree hread ⟨call, hcall, hseveral⟩
    exact exists_firstSeparated_of_several hread hcall hseveral
  · intro error hfault
    cases hsingle : scan options.single source with
    | error other => exact ⟨other, rfl⟩
    | ok tree =>
      rw [scan_several_of_single hsingle] at hfault
      cases hfault
  · intro error hfault hother
    rcases scan_single_eq_or options source with heq | ⟨offset, hcomma⟩
    · rw [← heq, hfault]
    · rw [hfault] at hcomma
      exact absurd (Except.error.inj hcomma) (hother offset)

/-- A comma between two arguments, with a further filter behind them. -/
theorem scan_single_slice :
    scan (Options.several {}) "name|slice:1,3|upper" =
        .ok ⟨.lookup ["name"], [⟨"slice", [.number (.integer 1), .number (.integer 3)]⟩,
          ⟨"upper", []⟩]⟩ ∧
      ∃ (derivation : Derivation (Options.several {})) (front rest : List Char),
        derivation.text = "name|slice:1,3|upper".toList ∧
        derivation.tree =
          ⟨.lookup ["name"], [⟨"slice", [.number (.integer 1), .number (.integer 3)]⟩,
            ⟨"upper", []⟩]⟩ ∧
        derivation.FirstSeparated front ∧ "name|slice:1,3|upper".toList = front ++ ',' :: rest ∧
        scan (Options.single {}) "name|slice:1,3|upper" =
          .error (.located (Scan.byteSize front) (.unexpectedTerminator ',')) := by
  have hread : scan (Options.several {}) "name|slice:1,3|upper" =
      .ok ⟨.lookup ["name"], [⟨"slice", [.number (.integer 1), .number (.integer 3)]⟩,
        ⟨"upper", []⟩]⟩ := by decide +kernel
  refine ⟨hread, (scan_single {} "name|slice:1,3|upper").2.2.1 _ hread ?_⟩
  exact ⟨_, List.mem_cons_self, by decide⟩

end Expression

end Stencil
