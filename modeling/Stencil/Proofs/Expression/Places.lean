import Stencil.Proofs.Expression.Lookahead
import Stencil.Proofs.Value.Access

/-!
Places of operands. An operand is due at the start of a source, and in a filter behind the colon or
a comma, where blanks may come first. `OperandPlace` gives such a place by what stands before it, of
which nothing is asked but that it is well formed. Any operand may stand there
(`OperandPlace.closed`), and the operands of an expression stand nowhere else
(`Derivation.exists_place`).

The text before a place is read in the same way whatever follows, and then the operand is read. So
the fault of an operand is the fault of the whole source, and an operand that is read is the next
one of the expression, if the source turns out to be one. This is carried from each reader to the
one that calls it (`Scan.ComesTo`), up to the whole source (`OperandPlace.scan_eq_error`,
`OperandPlace.exists_operands`).
-/

set_option autoImplicit false
set_option relaxedAutoImplicit false

namespace Stencil

open Stencil.Derivation Text

/-- The operands that a fragment consists of: itself, or the arguments of the filter. -/
def Fragment.operands : Fragment → List Operand
  | operand value => [value]
  | filter call => call.arguments

namespace Derivation

/-- Arguments with a comma behind each. -/
def earlierArguments (forms : List ArgumentForm) : List Char :=
  forms.flatMap fun form ↦ form.text ++ [',']

theorem earlierArguments_append (first last : ArgumentForm) (others : List ArgumentForm) :
    earlierArguments (first :: others) ++ last.text =
      first.text ++ laterArguments (others ++ [last]) := by
  induction others generalizing first with
  | nil => simp [earlierArguments, laterArguments]
  | cons second others ih =>
    have hmore := ih second
    simp only [earlierArguments, laterArguments, List.flatMap_cons, List.cons_append,
      List.append_assoc, List.nil_append] at hmore ⊢
    rw [hmore]

/-- The arguments of a filter around one of them. -/
theorem argumentText_append (name : Name) (given later : List ArgumentForm) (form : ArgumentForm) :
    (⟨name, given ++ form :: later⟩ : FilterForm).argumentText =
      ':' :: (earlierArguments given ++ (form.text ++ laterArguments later)) := by
  cases given with
  | nil => rfl
  | cons first others =>
    have hlater : laterArguments (others ++ form :: later) =
        laterArguments (others ++ [form]) ++ laterArguments later := by
      simp [laterArguments]
    rw [← List.append_assoc, earlierArguments_append, List.append_assoc, ← hlater]
    rfl

end Derivation

/-- A place where an operand is due, by what stands before it. -/
inductive OperandPlace (options : Options) where
  /-- The start of the source, behind blanks. -/
  | first (leading : Blanks)
  /-- In a filter that comes behind others, behind the arguments it already has and blanks. -/
  | argument (leading : Blanks) (operand : OperandForm) (filters : List FilterForm) (name : Name)
    (given : List ArgumentForm) (blanks : Blanks)
    (allowed : ∀ filter ∈ filters, Scan.Allowed options.multipleArguments filter)
    (several : options.multipleArguments = true ∨ given = [])

namespace OperandPlace

variable {options : Options}

/-- The text before the place. -/
def text : OperandPlace options → List Char
  | first leading => leading.text
  | argument leading operand filters name given blanks _ _ =>
    leading.text ++ (operand.spelling ++ (filters.flatMap FilterForm.text ++
      '|' :: (name.text ++ ':' :: (earlierArguments given ++ blanks.text))))

/-- The operands before the place. -/
def operands : OperandPlace options → List Operand
  | first _ => []
  | argument _ operand filters _ given _ _ _ =>
    operand.value :: (filters.flatMap (FilterCall.arguments ∘ FilterForm.value) ++
      given.map fun form ↦ form.operand.value)

theorem isBlank_of_mem_nil : ∀ c ∈ ([] : List Char), isBlank c = true :=
  List.forall_mem_nil _

/-- The source that ends with an operand at the place. -/
def closed (form : OperandForm) : OperandPlace options → Derivation options
  | first leading =>
    { leading
      operand := form
      filters := []
      trailing := ⟨[], isBlank_of_mem_nil⟩
      length_arguments_le := fun _ ↦ List.forall_mem_nil _ }
  | argument leading operand filters name given blanks allowed several =>
    { leading
      operand
      filters := filters ++ [⟨name, given ++ [⟨blanks, form⟩]⟩]
      trailing := ⟨[], isBlank_of_mem_nil⟩
      length_arguments_le := by
        intro hsingle filter hfilter
        rcases List.mem_append.1 hfilter with hearlier | hlast
        · exact allowed filter hearlier hsingle
        · obtain rfl := List.mem_singleton.1 hlast
          obtain rfl := several.resolve_left (Bool.eq_false_iff.1 hsingle)
          exact Nat.le_refl 1 }

/-- A place that an operand is put at has the text up to the place, and that of the operand. -/
theorem text_closed (place : OperandPlace options) (form : OperandForm) :
    (place.closed form).text = place.text ++ form.spelling := by
  cases place with
  | first leading => simp [closed, Derivation.text, text]
  | argument leading operand filters name given blanks =>
    have hgiven := argumentText_append name given [] ⟨blanks, form⟩
    simp [closed, Derivation.text, text, FilterForm.text, hgiven, ArgumentForm.text, laterArguments]

/-- A place that an operand is put at has the operands before the place, and that one. -/
theorem operands_closed (place : OperandPlace options) (form : OperandForm) :
    (place.closed form).tree.operands = place.operands ++ [form.value] := by
  cases place with
  | first leading => rfl
  | argument leading operand filters name given blanks =>
    simp [closed, Derivation.tree, operands, Expression.operands, FilterForm.value,
      List.flatMap_map, Function.comp_def]

end OperandPlace

/-- Every operand of an expression stands at a place. -/
theorem Derivation.exists_place {options : Options} (derivation : Derivation options)
    {value : Operand} (hvalue : value ∈ derivation.tree.operands) :
    ∃ (place : OperandPlace options) (form : OperandForm) (rest : List Char), form.value = value ∧
      Ends rest ∧ derivation.text = place.text ++ (form.spelling ++ rest) := by
  have hend := derivation.endsFilters_trailing
  rcases List.mem_cons.1 hvalue with rfl | hargument
  · refine ⟨.first derivation.leading, derivation.operand, _, rfl,
      (hend.endsArguments_filters derivation.filters).ends, ?_⟩
    simp only [Derivation.text, OperandPlace.text, List.append_assoc]
  · obtain ⟨call, hcall, hmem⟩ := List.mem_flatMap.1 hargument
    obtain ⟨filter, hfilter, rfl⟩ := List.mem_map.1 hcall
    obtain ⟨form, hform, rfl⟩ := List.mem_map.1 hmem
    obtain ⟨before, after, hfilters⟩ := List.append_of_mem hfilter
    obtain ⟨given, later, harguments⟩ := List.append_of_mem hform
    have hallowed := derivation.allowed_of_mem_filters
    have hseveral : options.multipleArguments = true ∨ given = [] := by
      rcases hmultiple : options.multipleArguments with _ | _
      · have hlength := hallowed filter hfilter hmultiple
        rw [harguments] at hlength
        exact Or.inr (List.eq_nil_of_length_eq_zero (by simp at hlength; omega))
      · exact Or.inl rfl
    have hbefore : ∀ earlier ∈ before, Scan.Allowed options.multipleArguments earlier := by
      intro earlier hearlier
      refine hallowed earlier ?_
      rw [hfilters]
      exact List.mem_append_left _ hearlier
    refine ⟨.argument derivation.leading derivation.operand before filter.name given form.blanks
      hbefore hseveral, form.operand,
      laterArguments later ++ (after.flatMap FilterForm.text ++ derivation.trailing.text), rfl,
      ?_, ?_⟩
    · cases later with
      | nil => exact (hend.endsArguments_filters after).ends
      | cons next later => exact Scan.ends_comma
    · have htext := argumentText_append filter.name given later form
      rw [← harguments] at htext
      simp [Derivation.text, OperandPlace.text, hfilters, FilterForm.text, htext, ArgumentForm.text]

namespace Scan

/-! ### Reading on -/

section ComesTo

variable {α β : Type}

/-- What a run makes of a text once it comes to an operand: a fault of the operand is that of the
run, and the run has the operand behind those before it. -/
structure ComesTo (first : Except Stop (Operand × List Char)) (operands : α → List Operand)
    (before : List Operand) (result : Except Stop (α × List Char)) : Prop where
  eq_error : ∀ stop, first = .error stop → result = .error stop
  exists_more : ∀ value rest made left, first = .ok (value, rest) → result = .ok (made, left) →
    ∃ more, operands made = before ++ value :: more

namespace ComesTo

variable {first : Except Stop (Operand × List Char)} {operands : α → List Operand}
  {before : List Operand} {reader : List Char → Except Stop (α × List Char)} {input : List Char}

theorem here (first : Except Stop (Operand × List Char)) :
    ComesTo first (fun value ↦ [value]) [] first where
  eq_error _ h := h
  exists_more value rest made left hvalue hmade := by
    cases hvalue.symm.trans hmade
    exact ⟨[], rfl⟩

/-- A run that goes on from what another one made, and keeps its operands. -/
theorem thenRead (hreader : ComesTo first operands before (reader input))
    {next : α → List Char → Except Stop (β × List Char)} {further : β → List Operand}
    (front : List Operand) (hnext : ∀ made rest last left, next made rest = .ok (last, left) →
      ∃ more, further last = front ++ (operands made ++ more)) :
    ComesTo first further (front ++ before) (Scan.thenRead reader next input) where
  eq_error stop h := by
    rw [Scan.thenRead, hreader.eq_error stop h]
  exists_more value rest last left hvalue hlast := by
    unfold Scan.thenRead at hlast
    split at hlast
    · cases hlast
    · rename_i made middle hmade
      obtain ⟨more, hmore⟩ := hreader.exists_more value rest made middle hvalue hmade
      obtain ⟨others, hothers⟩ := hnext made middle last left hlast
      refine ⟨more ++ others, ?_⟩
      rw [hothers, hmore]
      simp only [List.append_assoc, List.cons_append]

/-- Changing what is read does not change how far reading has come. -/
theorem map (hreader : ComesTo first operands before (reader input)) (change : α → β)
    (further : β → List Operand) (front : List Operand)
    (hchange : ∀ made, further (change made) = front ++ operands made) :
    ComesTo first further (front ++ before)
      ((reader input).map fun reading ↦ (change reading.1, reading.2)) := by
  have hmap := congrFun (map_eq_thenRead reader change) input
  rw [hmap]
  refine hreader.thenRead front fun made rest last left hlast ↦ ⟨[], ?_⟩
  cases hlast
  rw [hchange, List.append_nil]

end ComesTo

end ComesTo

variable {multiple : Bool} {c : Char}

/-! ### Arguments -/

/-- An argument that was read is the first of those that are given. -/
theorem operands_argumentsBehind {name : String} {value : Operand} {rest left : List Char}
    {fragments : List Fragment}
    (h : argumentsBehind multiple name value rest = .ok (fragments, left)) :
    ∃ more, fragments.filterMap Fragment.operand? = value :: more := by
  unfold argumentsBehind at h
  split at h
  · cases h
    exact ⟨[], rfl⟩
  · split at h
    · obtain ⟨reading, -, hreading⟩ := eq_ok_of_map_eq_ok h
      cases hreading
      exact ⟨reading.1.filterMap Fragment.operand?, rfl⟩
    · split at h <;> cases h
      exact ⟨[], rfl⟩

/-- An argument with a comma behind it is read, and then on behind the comma. -/
theorem arguments_comma (name : String) (form : ArgumentForm) (rest : List Char) :
    arguments true name (form.text ++ ',' :: rest) =
      (arguments true name rest).map fun reading ↦
        (.operand form.operand.value :: reading.1, reading.2) := by
  obtain ⟨c, tail, hspelling, hblank, hcomma, hbar⟩ := form.operand.exists_cons
  have hends : Ends (',' :: rest) := ends_comma
  have hread := operand_spelling form.operand hends
  rw [hspelling, List.cons_append] at hread
  rw [ArgumentForm.text, hspelling, List.append_assoc, List.cons_append,
    arguments_blanks name form.blanks hblank (by simp [hcomma, hbar]), thenRead, hread]
  simp only [argumentsBehind, and_self, if_true]

/-- Behind the arguments that a filter already has, the operand at the place is the next one. -/
theorem comesTo_arguments (name : String) {given : List ArgumentForm}
    (hseveral : multiple = true ∨ given = []) (blanks : Blanks) (hblank : isBlank c = false)
    (hc : ¬(c = ',' ∨ c = '|')) (rest : List Char) :
    ComesTo (operand (c :: rest)) (List.filterMap Fragment.operand?)
      (given.map fun form ↦ form.operand.value)
      (arguments multiple name (earlierArguments given ++ (blanks.text ++ c :: rest))) := by
  induction given with
  | nil =>
    rw [earlierArguments, List.flatMap_nil, List.nil_append, arguments_blanks name blanks hblank hc]
    exact (ComesTo.here (operand (c :: rest))).thenRead [] fun _ _ _ _ ↦ operands_argumentsBehind
  | cons form given ih =>
    obtain rfl : multiple = true := by simpa using hseveral
    rw [earlierArguments, List.flatMap_cons, List.append_assoc, List.append_assoc,
      List.singleton_append, arguments_comma]
    exact (ih (Or.inl rfl)).map (.operand form.operand.value :: ·)
      (List.filterMap Fragment.operand?) [form.operand.value] fun made ↦ rfl

/-! ### Filters -/

theorem filter_colon (name : Name) (rest : List Char) :
    filter multiple (name.text ++ ':' :: rest) =
      (arguments multiple (String.ofList name.text) rest).map fun reading ↦
        (.filter ⟨String.ofList name.text, reading.1.filterMap Fragment.operand?⟩, reading.2) := by
  have hcolon : StartsOutside isWord (':' :: rest) := startsOutside_cons.2 (by decide)
  have hleading : leadingWord (name.text ++ ':' :: rest) = name.text :=
    takeWhile_append name.isWord_of_mem hcolon
  have hafter : afterWord (name.text ++ ':' :: rest) = ':' :: rest :=
    dropWhile_append name.isWord_of_mem hcolon
  have hne : leadingWord (name.text ++ ':' :: rest) ≠ [] := by
    rw [hleading]
    exact name.ne_nil
  rw [filter_of_colon hne hafter, hleading]

/-- A filter with a further one behind it is read, and then on from the bar. -/
theorem filters_bar_bar {form : FilterForm} (hallowed : Allowed multiple form) (rest : List Char) :
    filters multiple (form.text ++ '|' :: rest) =
      (filters multiple ('|' :: rest)).map fun reading ↦
        (.filter form.value :: reading.1, reading.2) := by
  rw [FilterForm.text, List.cons_append, List.append_assoc, filters_cons, if_pos rfl,
    filter_text hallowed endsArguments_bar]

variable {first : Except Stop (Operand × List Char)} {before : List Operand} {text : List Char}

/-- A filter comes to the places that its arguments come to. -/
theorem comesTo_filter {name : Name}
    (harguments : ComesTo first (List.filterMap Fragment.operand?) before
      (arguments multiple (String.ofList name.text) text)) :
    ComesTo first Fragment.operands before (filter multiple (name.text ++ ':' :: text)) := by
  rw [filter_colon]
  exact harguments.map (fun fragments ↦ Fragment.filter ⟨String.ofList name.text,
    fragments.filterMap Fragment.operand?⟩) Fragment.operands [] fun made ↦ rfl

theorem exists_bar_cons (forms : List FilterForm) (text : List Char) :
    ∃ rest, forms.flatMap FilterForm.text ++ '|' :: text = '|' :: rest := by
  cases forms with
  | nil => exact ⟨text, rfl⟩
  | cons form forms => exact ⟨_, rfl⟩

/-- Filters come to the places of the last one, behind those before it. -/
theorem comesTo_filters (hfilter : ComesTo first Fragment.operands before (filter multiple text))
    {forms : List FilterForm} (hallowed : ∀ form ∈ forms, Allowed multiple form) :
    ComesTo first (List.flatMap Fragment.operands)
      (forms.flatMap (FilterCall.arguments ∘ FilterForm.value) ++ before)
      (filters multiple (forms.flatMap FilterForm.text ++ '|' :: text)) := by
  induction forms with
  | nil =>
    rw [List.flatMap_nil, List.flatMap_nil, List.nil_append, List.nil_append,
      ← List.singleton_append, filters_bar rfl]
    refine hfilter.thenRead [] fun made rest last left hlast ↦ ?_
    obtain ⟨reading, -, hreading⟩ := eq_ok_of_map_eq_ok hlast
    cases hreading
    exact ⟨reading.1.flatMap Fragment.operands, rfl⟩
  | cons form forms ih =>
    rw [List.forall_mem_cons] at hallowed
    have hmore := ih hallowed.2
    -- whether or not there is a further filter before the place, a bar comes next
    obtain ⟨rest, hrest⟩ := exists_bar_cons forms text
    rw [hrest] at hmore
    rw [List.flatMap_cons, List.flatMap_cons, List.append_assoc, List.append_assoc, hrest,
      filters_bar_bar hallowed.1]
    exact hmore.map (.filter form.value :: ·) (List.flatMap Fragment.operands) form.value.arguments
      fun made ↦ rfl

/-! ### Whole texts -/

/-- An expression comes to the places that its filters come to, behind its operand. -/
theorem comesTo_head_bar
    (hfilters : ComesTo first (List.flatMap Fragment.operands) before
      (filters multiple ('|' :: text))) (leading : Blanks) (form : OperandForm) :
    ComesTo first (List.flatMap Fragment.operands) (form.value :: before)
      (head multiple (leading.text ++ (form.spelling ++ '|' :: text))) := by
  obtain ⟨c, tail, hspelling, hblank, hcomma, hbar⟩ := form.exists_cons
  have hends : EndsArguments multiple ('|' :: text) := endsArguments_bar
  have hread := operand_spelling form hends.ends
  rw [hspelling, List.cons_append] at hread ⊢
  rw [head_blanks leading hblank hcomma hbar, Scan.thenRead, hread]
  exact hfilters.map (.operand form.value :: ·) (List.flatMap Fragment.operands) [form.value]
    fun made ↦ rfl

/-- A source is read up to the place, and then on from the operand there. -/
theorem comesTo_head {options : Options} (place : OperandPlace options) (hblank : isBlank c = false)
    (hcomma : c ≠ ',') (hbar : c ≠ '|') (rest : List Char) :
    ComesTo (operand (c :: rest)) (List.flatMap Fragment.operands) place.operands
      (head options.multipleArguments (place.text ++ c :: rest)) := by
  cases place with
  | first leading =>
    rw [OperandPlace.text, head_blanks leading hblank hcomma hbar]
    refine (ComesTo.here (operand (c :: rest))).thenRead [] fun made middle last left hlast ↦ ?_
    obtain ⟨reading, -, hreading⟩ := eq_ok_of_map_eq_ok hlast
    cases hreading
    exact ⟨reading.1.flatMap Fragment.operands, rfl⟩
  | argument leading operand filters name given blanks allowed several =>
    have harguments := comesTo_arguments (String.ofList name.text) several blanks hblank
      (by simp [hcomma, hbar]) rest
    have hfilters := comesTo_filters (comesTo_filter harguments) allowed
    simp only [OperandPlace.text, List.append_assoc, List.cons_append]
    obtain ⟨more, hmore⟩ := exists_bar_cons filters
      (name.text ++ ':' :: (earlierArguments given ++ (blanks.text ++ c :: rest)))
    rw [hmore] at hfilters ⊢
    exact comesTo_head_bar hfilters leading operand

end Scan

namespace OperandPlace

open Scan

variable {options : Options} {c : Char}

/-- A fault of the operand at the place is that of the source, wherever it is in the operand. -/
theorem scan_eq_error (place : OperandPlace options) (hblank : isBlank c = false)
    (hcomma : c ≠ ',') (hbar : c ≠ '|') {rest front stopped : List Char} {problem : Problem}
    (hsplit : c :: rest = front ++ stopped)
    (hoperand : operand (c :: rest) = .error (.located stopped problem)) :
    Expression.scan options (.ofList (place.text ++ c :: rest)) =
      .error (.located (String.ofList (place.text ++ front)).utf8ByteSize problem) := by
  have hhead := (comesTo_head place hblank hcomma hbar rest).eq_error _ hoperand
  have hsource : (String.ofList (place.text ++ c :: rest)).toList =
      (place.text ++ front) ++ stopped := by
    rw [String.toList_ofList, hsplit, List.append_assoc]
  refine Expression.scan_eq_located hsource ?_
  rw [List.append_assoc, ← hsplit, whole, hhead]

/-- An operand that is read at the place is the next operand of the expression. -/
theorem exists_operands (place : OperandPlace options) (hblank : isBlank c = false)
    (hcomma : c ≠ ',') (hbar : c ≠ '|') {rest left : List Char} {value : Operand}
    {tree : Expression} (hoperand : operand (c :: rest) = .ok (value, left))
    (hscan : Expression.scan options (.ofList (place.text ++ c :: rest)) = .ok tree) :
    ∃ more, tree.operands = place.operands ++ value :: more := by
  rw [Expression.scan_eq_ok_iff, String.toList_ofList] at hscan
  -- a source that is an expression is derived, and then its head is read as the whole derivation
  obtain ⟨derivation, htext, rfl⟩ := exists_derivation hscan
  have hread := head_text derivation.leading derivation.operand derivation.allowed_of_mem_filters
    derivation.endsFilters_trailing
  have hsource : derivation.leading.text ++ (derivation.operand.spelling ++
      (derivation.filters.flatMap FilterForm.text ++ derivation.trailing.text)) =
      place.text ++ c :: rest := by
    rw [← htext]
    simp only [Derivation.text, List.append_assoc]
  rw [hsource] at hread
  obtain ⟨more, hmore⟩ :=
    (comesTo_head place hblank hcomma hbar rest).exists_more value left _ _ hoperand hread
  refine ⟨more, ?_⟩
  rw [← hmore]
  simp [Expression.operands, Derivation.tree, Fragment.operands, List.flatMap_map]

end OperandPlace

end Stencil
