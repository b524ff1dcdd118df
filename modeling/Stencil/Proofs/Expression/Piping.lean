import Stencil.Expression.Evaluation
import Stencil.Proofs.Expression.RoundTrip

/-!
Piping in the text and in the value. A filter is put behind an expression by writing its text behind
a source of the expression, as long as the source does not end in a blank: the blanks at the end of
a derivation are the only part of it that filters cannot follow (`Derivation.piped`,
`Expression.scan_append_spell`). The value of the longer expression is what the filter makes of the
value of the shorter one (`Expression.evaluate_withFilter`, `Expression.scan_piped`).
-/

set_option autoImplicit false
set_option relaxedAutoImplicit false

namespace Stencil

open Stencil.Derivation Text

variable {options : Options}

/-! ### Texts -/

namespace Derivation

/-- The derivation with further filters, and with nothing behind them. -/
def piped (derivation : Derivation options) (forms : List FilterForm)
    (hallowed : ∀ form ∈ forms, Scan.Allowed options.multipleArguments form) :
    Derivation options where
  leading := derivation.leading
  operand := derivation.operand
  filters := derivation.filters ++ forms
  trailing := ⟨[], by simp⟩
  length_arguments_le := fun hsingle filter hfilter ↦
    (List.mem_append.1 hfilter).elim (derivation.length_arguments_le hsingle filter)
      fun hform ↦ hallowed filter hform hsingle

/-- A text that does not end in a blank has no blanks at its end. -/
theorem trailing_eq_nil {derivation : Derivation options}
    (hend : ∀ c ∈ derivation.text.getLast?, isBlank c = false) : derivation.trailing.text = [] := by
  by_contra hne
  have hlast : derivation.text.getLast? = some (derivation.trailing.text.getLast hne) := by
    rw [text, List.getLast?_append_of_ne_nil _ hne, List.getLast?_eq_some_getLast hne]
  have hblank := derivation.trailing.isBlank_of_mem _ (List.getLast_mem hne)
  rw [hend _ hlast] at hblank
  cases hblank

/-- Filters are piped behind a text that has no blanks at its end by writing them there. -/
theorem text_piped {derivation : Derivation options} {forms : List FilterForm}
    (hallowed : ∀ form ∈ forms, Scan.Allowed options.multipleArguments form)
    (htrailing : derivation.trailing.text = []) :
    (derivation.piped forms hallowed).text = derivation.text ++ forms.flatMap FilterForm.text := by
  simp [text, piped, htrailing]

end Derivation

namespace Expression

theorem foldl_withFilter (tree : Expression) (calls : List FilterCall) :
    calls.foldl withFilter tree = ⟨tree.operand, tree.filters ++ calls⟩ := by
  induction calls generalizing tree with
  | nil => rw [List.foldl_nil, List.append_nil]
  | cons call calls ih =>
    rw [List.foldl_cons, ih, withFilter, List.append_assoc, List.singleton_append]

/-- Behind a source that does not end in a blank, the texts of filters are read as these filters. -/
theorem scan_append_spell {source : String} {tree : Expression} {calls : List FilterCall}
    (hscan : scan options source = .ok tree)
    (hend : ∀ c ∈ source.toList.getLast?, isBlank c = false)
    (hcalls : ∀ call ∈ calls, call.WellFormed options) :
    scan options (source ++ String.ofList (calls.flatMap FilterCall.spell)) =
      .ok (calls.foldl withFilter tree) := by
  obtain ⟨derivation, htext, rfl⟩ := Scan.exists_derivation (scan_eq_ok_iff.1 hscan)
  obtain ⟨forms, htexts, hvalues, -⟩ := exists_filters calls hcalls
  have hallowed : ∀ form ∈ forms, Scan.Allowed options.multipleArguments form := by
    intro form hform hsingle
    have hmem : form.value ∈ calls := hvalues ▸ List.mem_map_of_mem hform
    simpa [FilterForm.value] using (hcalls _ hmem).length_arguments_le hsingle
  have htrailing : derivation.trailing.text = [] := trailing_eq_nil (by rwa [htext])
  have hlonger : (source ++ String.ofList (calls.flatMap FilterCall.spell)).toList =
      (derivation.piped forms hallowed).text := by
    rw [text_piped hallowed htrailing, String.toList_append, String.toList_ofList, htext, htexts]
  have htree : calls.foldl withFilter derivation.tree = (derivation.piped forms hallowed).tree := by
    rw [foldl_withFilter, ← hvalues]
    simp only [Derivation.tree, Derivation.piped, List.map_append]
  rw [scan_eq_ok_iff, hlonger, htree]
  exact Scan.expression_text _

/-- A source that does not end in a blank, with the text of a filter behind it. It is read as the
expression with one more filter. Its value is the failure of the shorter expression where that
fails; elsewhere the name of the filter has to be known, and the filter makes the value, or fails,
of the value before it and the values of its arguments. -/
theorem scan_piped (options : Options) (source : String) (tree : Expression) (call : FilterCall)
    (hscan : scan options source = .ok tree)
    (hend : ∀ c ∈ source.toList.getLast?, isBlank c = false) (hcall : call.WellFormed options) :
    scan options (source ++ String.ofList call.spell) = .ok (tree.withFilter call) ∧
    ∀ (filters : Filters) (context : Context),
      (∀ failure, tree.evaluate filters context = .error failure →
        (tree.withFilter call).evaluate filters context = .error failure) ∧
      ∀ value, tree.evaluate filters context = .ok value →
        (filters.find? call.name = none →
          (tree.withFilter call).evaluate filters context = .error (.unknownFilter call.name)) ∧
        ∀ filter, filters.find? call.name = some filter →
          (tree.withFilter call).evaluate filters context =
            (filter value (call.arguments.map (Operand.evaluate context))).mapError
              (.filterFailed call.name) := by
  constructor
  · have hlonger := scan_append_spell hscan hend (List.forall_mem_singleton.2 hcall)
    rwa [List.flatMap_singleton] at hlonger
  intro filters context
  refine ⟨fun failure hfails ↦ ?_, fun value hvalue ↦ ⟨fun hfind ↦ ?_, fun filter hfind ↦ ?_⟩⟩
  · rw [evaluate_withFilter, hfails]
    rfl
  · rw [evaluate_withFilter, hvalue]
    exact FilterCall.apply_of_find?_eq_none hfind context value
  · rw [evaluate_withFilter, hvalue]
    exact FilterCall.apply_of_find?_eq_some hfind context value

/-- A filter with an argument, behind a text that ends in a quoted blank. -/
theorem scan_piped_join :
    scan {} "items|join:', '" = .ok ⟨.lookup ["items"], [⟨"join", [.text ", "]⟩]⟩ ∧
      (∀ c ∈ "items|join:', '".toList.getLast?, isBlank c = false) ∧
      (⟨"default", [.text "a|b"]⟩ : FilterCall).WellFormed {} ∧
      scan {} ("items|join:', '" ++
          String.ofList (⟨"default", [.text "a|b"]⟩ : FilterCall).spell) =
        .ok ⟨.lookup ["items"], [⟨"join", [.text ", "]⟩, ⟨"default", [.text "a|b"]⟩]⟩ ∧
      (⟨.lookup ["items"], [⟨"join", [.text ", "]⟩, ⟨"default", [.text "a|b"]⟩]⟩ :
        Expression).evaluate {} {} = .error (.unknownFilter "join") := by
  have hscan : scan {} "items|join:', '" =
      .ok ⟨.lookup ["items"], [⟨"join", [.text ", "]⟩]⟩ := by decide +kernel
  have hend : ∀ c ∈ "items|join:', '".toList.getLast?, isBlank c = false := by
    have hlast : "items|join:', '".toList.getLast? = some '\'' := by decide +kernel
    rw [hlast]
    rintro c ⟨⟩
    decide
  have hcall : (⟨"default", [.text "a|b"]⟩ : FilterCall).WellFormed {} :=
    ⟨⟨by decide, List.all_eq_true.1 (by decide)⟩, List.forall_mem_singleton.2 trivial, by decide⟩
  have hfails : (⟨.lookup ["items"], [⟨"join", [.text ", "]⟩]⟩ : Expression).evaluate {} {} =
      .error (.unknownFilter "join") := by
    rw [evaluate, List.foldlM_cons, FilterCall.apply_of_find?_eq_none (by simp [Filters.find?])]
    rfl
  obtain ⟨hlonger, hvalue⟩ := scan_piped {} _ _ _ hscan hend hcall
  exact ⟨hscan, hend, hcall, hlonger, (hvalue {} {}).1 _ hfails⟩

end Expression

end Stencil
