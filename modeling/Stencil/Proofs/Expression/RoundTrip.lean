import Stencil.Expression.Printer
import Stencil.Proofs.Binary64.ReadBack
import Stencil.Proofs.Expression.Soundness

/-!
Reading what was written. The expressions that a text can denote are the well formed ones: their
numbers carry no sign, names are words, and a filter has several arguments only where the options
allow it. Every tree of a derivation is of this kind (`Derivation.wellFormed_tree`), and every such
expression has a derivation that spells out its canonical text, in which blanks stand inside quoted
texts only (`Expression.WellFormed.exists_tight`). So
reading gives well formed expressions only, and gives each of them back from its canonical text
(`Expression.scan_display`).
-/

set_option autoImplicit false
set_option relaxedAutoImplicit false

namespace Stencil

open Stencil.Derivation Text

/-! ### Well formed expressions -/

/-- A word: letters, digits and underscores, at least one of them. -/
def IsName (name : String) : Prop :=
  name.toList ≠ [] ∧ ∀ c ∈ name.toList, isWord c = true

/-- A number that can be written without a sign. -/
def Number.WellFormed : Number → Prop
  | integer value => 0 ≤ value.toInt
  | decimal value => ∃ rank, value = .finite false rank

/-- A path of names, the first of which does not start with a digit. -/
structure Lookup.WellFormed (path : List String) : Prop where
  ne_nil : path ≠ []
  isName_of_mem : ∀ name ∈ path, IsName name
  start : ∀ first ∈ path.head?, ∀ c ∈ first.toList.head?, c.isDigit = false

/-- An operand that can be written. -/
def Operand.WellFormed : Operand → Prop
  | number value => value.WellFormed
  | text _ => True
  | lookup path => Lookup.WellFormed path

/-- A filter that can be written, with as many arguments as the options allow. -/
structure FilterCall.WellFormed (options : Options) (call : FilterCall) : Prop where
  isName : IsName call.name
  arguments : ∀ argument ∈ call.arguments, argument.WellFormed
  length_arguments_le : options.multipleArguments = false → call.arguments.length ≤ 1

/-- An expression that can be written. -/
structure Expression.WellFormed (options : Options) (expression : Expression) : Prop where
  operand : expression.operand.WellFormed
  filters : ∀ call ∈ expression.filters, call.WellFormed options

/-! ### Trees of derivations -/

theorem Derivation.Name.isName (name : Name) : IsName (String.ofList name.text) := by
  rw [IsName, String.toList_ofList]
  exact ⟨name.ne_nil, name.isWord_of_mem⟩

theorem Derivation.NumberForm.wellFormed_value (form : NumberForm) : form.value.WellFormed := by
  cases form with
  | integer digits _ hbounded =>
    show 0 ≤ (Int64.ofNat digits.value).toInt
    rw [Int64.toInt_ofNat_of_lt (Nat.lt_succ_of_le hbounded)]
    exact Int.natCast_nonneg _
  | decimal whole fraction hfinite => exact hfinite

theorem Derivation.LookupForm.wellFormed_value (form : LookupForm) :
    Lookup.WellFormed form.value := by
  constructor
  · simp [LookupForm.value]
  · intro name hname
    obtain ⟨other, -, rfl⟩ := List.mem_map.1 hname
    exact other.isName
  · rintro first ⟨⟩
    rw [String.toList_ofList]
    exact form.start

theorem Derivation.OperandForm.wellFormed_value (form : OperandForm) : form.value.WellFormed := by
  cases form with
  | number form => exact form.wellFormed_value
  | text form => exact trivial
  | lookup form => exact form.wellFormed_value

variable {options : Options}

/-- The tree of a derivation is well formed. -/
theorem Derivation.wellFormed_tree (derivation : Derivation options) :
    derivation.tree.WellFormed options := by
  constructor
  · exact derivation.operand.wellFormed_value
  · intro call hcall
    obtain ⟨form, hform, rfl⟩ := List.mem_map.1 hcall
    constructor
    · exact form.name.isName
    · intro argument hargument
      obtain ⟨other, -, rfl⟩ := List.mem_map.1 hargument
      exact other.operand.wellFormed_value
    · intro hsingle
      simpa [FilterForm.value] using derivation.length_arguments_le hsingle form hform

/-! ### Canonical texts -/

theorem IsName.exists_name {name : String} (hname : IsName name) :
    ∃ form : Name, form.text = name.toList ∧ String.ofList form.text = name :=
  ⟨⟨name.toList, hname.1, hname.2⟩, rfl, String.ofList_toList⟩

/-- Every well formed number is displayed as a literal that denotes it. -/
theorem Number.WellFormed.exists_form {value : Number} (hvalue : value.WellFormed) :
    ∃ form : NumberForm, form.text = value.spell ∧ form.value = value := by
  cases value with
  | integer value =>
    have hnonneg : 0 ≤ value.toInt := hvalue
    have hcast : (value.toInt.natAbs : Int) = value.toInt := Int.natAbs_of_nonneg hnonneg
    have hread : Nat.ofDigitChars 10 (Nat.toDigits 10 value.toInt.natAbs) 0 = value.toInt.natAbs :=
      Nat.ofDigitChars_ten_toDigits
    have hbounded : value.toInt.natAbs ≤ Number.greatest := by
      have hlt := value.toInt_lt
      rw [← hcast] at hlt
      exact Nat.le_of_lt_succ (Int.ofNat_lt.1 hlt)
    refine ⟨.integer ⟨Nat.toDigits 10 value.toInt.natAbs, fun c hc ↦
      Nat.isDigit_of_mem_toDigits (by decide) (by decide) hc⟩ Nat.toDigits_ne_nil
      (hread.trans_le hbounded), ?_, ?_⟩
    · simp [NumberForm.text, Number.spell, spellInteger, not_lt.2 hnonneg]
    · refine congrArg Number.integer ?_
      rw [Digits.value, hread]
      apply Int64.toInt.inj
      rw [Int64.toInt_ofNat_of_lt (Nat.lt_succ_of_le hbounded), hcast]
  | decimal value =>
    obtain ⟨rank, rfl⟩ := hvalue
    obtain ⟨whole, fraction, hwhole, hfraction, hspell, hread⟩ :=
      Number.exists_digits_spellDecimal rank
    have hdenoted : decimalValue ⟨whole, hwhole⟩ ⟨fraction, hfraction⟩ = .finite false rank :=
      (decimalValue_eq _ _).trans hread
    exact ⟨.decimal ⟨whole, hwhole⟩ ⟨fraction, hfraction⟩ ⟨rank, hdenoted⟩, hspell.symm,
      congrArg Number.decimal hdenoted⟩

/-- The item that a character is written as between single quotes. -/
def Derivation.QuotedItem.ofChar (c : Char) : QuotedItem :=
  if c = '\'' ∨ c = '\\' then .escaped c else .plain c

theorem Derivation.QuotedItem.text_ofChar (c : Char) : (ofChar c).text = Literal.escape '\'' c := by
  unfold ofChar Literal.escape
  split <;> rfl

theorem Derivation.QuotedItem.value_ofChar (c : Char) : (ofChar c).value = [c] := by
  unfold ofChar
  split
  · rename_i hescaped
    rcases hescaped with rfl | rfl <;> rfl
  · rfl

/-- Every text is displayed as a literal that denotes it. -/
theorem Derivation.exists_textForm (value : String) :
    ∃ form : TextForm, form.text = Literal.spell '\'' value.toList ∧
      String.ofList form.value = value := by
  refine ⟨⟨'\'', value.toList.map .ofChar, Or.inl rfl, ?_⟩, ?_, ?_⟩
  · intro c hc
    obtain ⟨other, -, hother⟩ := List.mem_map.1 hc
    unfold QuotedItem.ofChar at hother
    split at hother
    · cases hother
    · rename_i hplain
      cases hother
      exact not_or.1 hplain
  · simp only [TextForm.text, Literal.spell, List.flatMap_map, QuotedItem.text_ofChar]
  · simp [TextForm.value, List.flatMap_map, QuotedItem.value_ofChar]

theorem exists_names {path : List String} (hpath : ∀ name ∈ path, IsName name) :
    ∃ names : List Name, (names.map fun name ↦ String.ofList name.text) = path := by
  induction path with
  | nil => exact ⟨[], rfl⟩
  | cons first path ih =>
    obtain ⟨form, -, hform⟩ := (hpath first List.mem_cons_self).exists_name
    obtain ⟨names, hnames⟩ := ih fun name hname ↦ hpath name (List.mem_cons_of_mem _ hname)
    exact ⟨form :: names, by rw [List.map_cons, hform, hnames]⟩

theorem Lookup.spell_cons (first : String) (others : List String) :
    Lookup.spell (first :: others) =
      first.toList ++ others.flatMap fun name ↦ '.' :: name.toList := by
  induction others generalizing first with
  | nil => simp [Lookup.spell]
  | cons second others ih =>
    have hmore := ih second
    rw [Lookup.spell] at hmore ⊢
    rw [List.map_cons, List.map_cons, List.intercalate_cons_cons, ← List.map_cons, hmore]
    simp

/-- Every well formed path is displayed as a lookup that denotes it. -/
theorem Lookup.WellFormed.exists_form {path : List String} (hpath : Lookup.WellFormed path) :
    ∃ form : LookupForm, form.text = Lookup.spell path ∧ form.value = path := by
  obtain ⟨hne, hnames, hstart⟩ := hpath
  obtain ⟨names, rfl⟩ := exists_names hnames
  cases names with
  | nil => exact (hne rfl).elim
  | cons first others =>
    have hdigit : ∀ c ∈ first.text.head?, c.isDigit = false := by simpa using hstart
    refine ⟨⟨first, others, hdigit⟩, ?_, rfl⟩
    rw [List.map_cons, Lookup.spell_cons]
    simp [LookupForm.text, List.flatMap_map]

/-- Every well formed operand is displayed as one that is written so. -/
theorem Operand.WellFormed.exists_form {operand : Operand} (hoperand : operand.WellFormed) :
    ∃ form : OperandForm, form.spelling = operand.spell ∧ form.value = operand := by
  cases operand with
  | number value =>
    obtain ⟨form, htext, hvalue⟩ := Number.WellFormed.exists_form hoperand
    exact ⟨.number form, htext, congrArg Operand.number hvalue⟩
  | text value =>
    obtain ⟨form, htext, hvalue⟩ := exists_textForm value
    exact ⟨.text form, htext, congrArg Operand.text hvalue⟩
  | lookup path =>
    obtain ⟨form, htext, hvalue⟩ := Lookup.WellFormed.exists_form hoperand
    exact ⟨.lookup form, htext, congrArg Operand.lookup hvalue⟩

theorem exists_arguments (arguments : List Operand)
    (harguments : ∀ argument ∈ arguments, argument.WellFormed) :
    ∃ forms : List ArgumentForm, forms.map ArgumentForm.text = arguments.map Operand.spell ∧
      (forms.map fun form ↦ form.operand.value) = arguments ∧
      ∀ form ∈ forms, form.blanks.text = [] := by
  induction arguments with
  | nil => exact ⟨[], rfl, rfl, by simp⟩
  | cons first arguments ih =>
    obtain ⟨form, htext, hvalue⟩ := (harguments first List.mem_cons_self).exists_form
    obtain ⟨forms, htexts, hvalues, htight⟩ :=
      ih fun argument hargument ↦ harguments argument (List.mem_cons_of_mem _ hargument)
    refine ⟨⟨⟨[], by simp⟩, form⟩ :: forms, ?_, ?_, ?_⟩
    · rw [List.map_cons, List.map_cons, htexts, ArgumentForm.text, htext, List.nil_append]
    · rw [List.map_cons, hvalue, hvalues]
    · exact List.forall_mem_cons.2 ⟨rfl, htight⟩

/-- Every well formed filter is displayed as one that is written so, without blanks. -/
theorem FilterCall.WellFormed.exists_form {call : FilterCall} (hcall : call.WellFormed options) :
    ∃ form : FilterForm, form.text = call.spell ∧ form.value = call ∧ form.Tight := by
  obtain ⟨name, arguments⟩ := call
  obtain ⟨nameForm, hnameText, hnameValue⟩ := hcall.isName.exists_name
  obtain ⟨forms, htexts, hvalues, htight⟩ := exists_arguments arguments hcall.arguments
  refine ⟨⟨nameForm, forms⟩, ?_, by rw [FilterForm.value, hnameValue, hvalues], htight⟩
  rw [FilterForm.text, FilterCall.spell, hnameText, List.cons_append]
  refine congrArg (fun text ↦ '|' :: (name.toList ++ text)) ?_
  cases forms with
  | nil =>
    obtain rfl : arguments = [] := hvalues.symm
    rfl
  | cons first others =>
    have hne : arguments ≠ [] := by
      rw [← hvalues]
      exact List.cons_ne_nil _ _
    obtain ⟨argument, arguments, rfl⟩ := List.exists_cons_of_ne_nil hne
    rw [List.map_cons, List.map_cons, List.cons.injEq] at htexts
    have hothers : laterArguments others = arguments.flatMap fun other ↦ ',' :: other.spell := by
      have hflat := congrArg (List.flatMap (',' :: ·)) htexts.2
      rwa [List.flatMap_map, List.flatMap_map] at hflat
    show ':' :: (first.text ++ laterArguments others) = FilterCall.spellArguments _
    rw [htexts.1, hothers]
    rfl

theorem exists_filters (calls : List FilterCall)
    (hcalls : ∀ call ∈ calls, call.WellFormed options) :
    ∃ forms : List FilterForm, forms.flatMap FilterForm.text = calls.flatMap FilterCall.spell ∧
      forms.map FilterForm.value = calls ∧ ∀ form ∈ forms, form.Tight := by
  induction calls with
  | nil => exact ⟨[], rfl, rfl, by simp⟩
  | cons call calls ih =>
    obtain ⟨form, htext, hvalue, hform⟩ := (hcalls call List.mem_cons_self).exists_form
    obtain ⟨forms, htexts, hvalues, htight⟩ :=
      ih fun other hother ↦ hcalls other (List.mem_cons_of_mem _ hother)
    refine ⟨form :: forms, ?_, ?_, List.forall_mem_cons.2 ⟨hform, htight⟩⟩
    · rw [List.flatMap_cons, List.flatMap_cons, htext, htexts]
    · rw [List.map_cons, hvalue, hvalues]

/-- A well formed expression has a derivation that spells out its canonical text, in which blanks
stand inside quoted texts only. -/
theorem Expression.WellFormed.exists_tight {tree : Expression} (htree : tree.WellFormed options) :
    ∃ derivation : Derivation options, derivation.text = tree.spell ∧ derivation.tree = tree ∧
      derivation.Tight := by
  obtain ⟨operand, calls⟩ := tree
  obtain ⟨form, htext, hvalue⟩ := htree.operand.exists_form
  obtain ⟨forms, htexts, hvalues, htight⟩ := exists_filters calls htree.filters
  refine ⟨⟨⟨[], by simp⟩, form, forms, ⟨[], by simp⟩, ?_⟩, ?_, ?_, rfl, htight, rfl⟩
  · intro hsingle filter hfilter
    have hmem : filter.value ∈ calls := hvalues ▸ List.mem_map_of_mem hfilter
    simpa [FilterForm.value] using (htree.filters _ hmem).length_arguments_le hsingle
  · simp only [Derivation.text, htext, htexts, List.nil_append, List.append_nil, Expression.spell]
  · rw [Derivation.tree, hvalue, hvalues]

/-- Every well formed expression is displayed as the text of a derivation with that tree. -/
theorem Expression.WellFormed.exists_canonical {tree : Expression}
    (htree : tree.WellFormed options) :
    ∃ derivation : Derivation options, derivation.text = tree.spell ∧ derivation.tree = tree := by
  obtain ⟨derivation, htext, hvalue, -⟩ := htree.exists_tight
  exact ⟨derivation, htext, hvalue⟩

/-- Only well formed expressions are read. -/
theorem Expression.wellFormed_of_scan {source : String} {tree : Expression}
    (hscan : Expression.scan options source = .ok tree) : tree.WellFormed options := by
  obtain ⟨derivation, -, rfl⟩ := Scan.exists_derivation (Expression.scan_eq_ok_iff.1 hscan)
  exact derivation.wellFormed_tree

/-- Only well formed expressions are read, and each of them is read from its canonical text. -/
theorem Expression.scan_display (options : Options) :
    (∀ source tree, Expression.scan options source = .ok tree → tree.WellFormed options) ∧
      ∀ tree : Expression, tree.WellFormed options →
        Expression.scan options tree.display = .ok tree := by
  constructor
  · intro source tree hread
    exact wellFormed_of_scan hread
  · intro tree htree
    obtain ⟨derivation, htext, hvalue⟩ := htree.exists_canonical
    rw [Expression.scan_eq_ok_iff, Expression.display, String.toList_ofList, ← htext]
    exact (Scan.expression_text derivation).trans (congrArg Except.ok hvalue)

theorem Expression.scan_display_join :
    (⟨.text "it's", [⟨"join", [.lookup ["user", "name"]]⟩]⟩ : Expression).WellFormed {} ∧
      Expression.scan {} (⟨.text "it's", [⟨"join", [.lookup ["user", "name"]]⟩]⟩ :
        Expression).display = .ok ⟨.text "it's", [⟨"join", [.lookup ["user", "name"]]⟩]⟩ := by
  have hjoin : IsName "join" := ⟨by decide, List.all_eq_true.1 (by decide)⟩
  have huser : IsName "user" := ⟨by decide, List.all_eq_true.1 (by decide)⟩
  have hname : IsName "name" := ⟨by decide, List.all_eq_true.1 (by decide)⟩
  have hpath : Lookup.WellFormed ["user", "name"] := by
    refine ⟨by decide, List.forall_mem_cons.2 ⟨huser, List.forall_mem_singleton.2 hname⟩, ?_⟩
    rintro first ⟨⟩ c ⟨⟩
    decide
  have hcall : (⟨"join", [.lookup ["user", "name"]]⟩ : FilterCall).WellFormed {} :=
    ⟨hjoin, List.forall_mem_singleton.2 hpath, by decide⟩
  have htree : (⟨.text "it's", [⟨"join", [.lookup ["user", "name"]]⟩]⟩ :
      Expression).WellFormed {} :=
    ⟨trivial, List.forall_mem_singleton.2 hcall⟩
  exact ⟨htree, (Expression.scan_display {}).2 _ htree⟩

end Stencil
