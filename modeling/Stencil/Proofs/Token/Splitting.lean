import Stencil.Proofs.Expression.RoundTrip
import Stencil.Token.Arguments

/-!
Arguments of a tag are split where expressions end. The reader of arguments knows nothing of
expressions; it follows quotes and looks for blanks outside of them. A text that it crosses from
outside quotes to outside quotes, without a blank outside, is one argument
(`TagToken.Crosses`, `TagToken.splitArgument_append`). Quoted texts are crossed, since what stands
inside is a character that neither closes the quotes nor escapes, or a pair that cannot close them
(`Derivation.TextForm.crosses`), and so are all expressions that have their blanks inside quoted
texts (`Derivation.Tight.crosses`). Hence sources of this kind, laid out with blanks in between, are
what the content of a tag is split into (`Layout.arguments_content`).
-/

set_option autoImplicit false
set_option relaxedAutoImplicit false

namespace Stencil

open Stencil.Derivation Text

namespace TagToken

/-- A text without blanks outside quotes, which takes the reader of arguments from the one place to
the other. -/
def Crosses (start : Quoting) (text : List Char) (finish : Quoting) : Prop :=
  match text with
  | [] => start = finish
  | c :: rest => ¬(start = .outside ∧ isBlank c = true) ∧ Crosses (start.after c) rest finish

/-- Two texts are crossed one behind the other. -/
theorem Crosses.append {start middle finish : Quoting} {text more : List Char}
    (htext : Crosses start text middle) (hmore : Crosses middle more finish) :
    Crosses start (text ++ more) finish := by
  induction text generalizing start with
  | nil =>
    obtain rfl : start = middle := htext
    exact hmore
  | cons c text ih => exact ⟨htext.1, ih htext.2⟩

/-- Texts that are crossed from a place back to it are crossed one after the other. -/
theorem crosses_flatMap {α : Type} {place : Quoting} {spell : α → List Char} {parts : List α}
    (hparts : ∀ part ∈ parts, Crosses place (spell part) place) :
    Crosses place (parts.flatMap spell) place := by
  induction parts with
  | nil => rfl
  | cons part parts ih =>
    rw [List.flatMap_cons]
    exact (hparts part List.mem_cons_self).append
      (ih fun other hother ↦ hparts other (List.mem_cons_of_mem _ hother))

/-- A character that is neither a blank nor a quote is crossed outside of quotes. -/
theorem crosses_cons_outside {c : Char} {text : List Char} {finish : Quoting}
    (hblank : isBlank c = false) (hquote : Literal.isQuote c = false)
    (htext : Crosses .outside text finish) : Crosses .outside (c :: text) finish := by
  refine ⟨fun habsurd ↦ ?_, ?_⟩
  · rw [hblank] at habsurd
    cases habsurd.2
  · rw [Quoting.after, hquote]
    exact htext

/-- The reader of an argument goes on behind a text that it crosses. -/
theorem Crosses.splitArgument_append {start finish : Quoting} {text : List Char}
    (htext : Crosses start text finish) (rest : List Char) :
    splitArgument start (text ++ rest) =
      (text ++ (splitArgument finish rest).1, (splitArgument finish rest).2) := by
  induction text generalizing start with
  | nil =>
    obtain rfl : start = finish := htext
    rfl
  | cons c text ih =>
    rw [List.cons_append, splitArgument, if_neg htext.1, ih htext.2]
    rfl

/-- The text up to the first blank outside quotes is the one that is crossed. -/
theorem splitArgument_append {start : Quoting} {text rest : List Char}
    (htext : Crosses start text .outside) (hrest : ∀ c ∈ rest.head?, isBlank c = true) :
    splitArgument start (text ++ rest) = (text, rest) := by
  rw [htext.splitArgument_append]
  cases rest with
  | nil => rw [splitArgument, List.append_nil]
  | cons c rest => rw [splitArgument, if_pos ⟨rfl, hrest c rfl⟩, List.append_nil]

/-- Texts that a content is split into, and where the reader stands behind the last. Quotes may be
left open in the last one only. -/
inductive Splits : List (List Char) → Quoting → Prop where
  | none : Splits [] .outside
  | last {text : List Char} {finish : Quoting} (ne_nil : text ≠ [])
      (crosses : Crosses .outside text finish) : Splits [text] finish
  | more {text : List Char} {texts : List (List Char)} {finish : Quoting} (ne_nil : text ≠ [])
      (crosses : Crosses .outside text .outside) (rest : Splits texts finish) :
      Splits (text :: texts) finish

theorem readArguments_nil : readArguments [] = [] := by
  rw [readArguments_eq]
  rfl

theorem readArguments_blanks (blanks : Blanks) : readArguments blanks.text = [] := by
  have hskip : skipBlanks blanks.text = [] := List.dropWhile_eq_nil_iff.2 blanks.isBlank_of_mem
  rw [readArguments_eq, hskip]

/-- An argument that begins as a text crossed in one go goes on as the splitting does from there. -/
theorem readArguments_crossed (blanks : Blanks) {text : List Char} {finish : Quoting}
    (hne : text ≠ []) (htext : Crosses .outside text finish) (rest : List Char) :
    readArguments (blanks.text ++ (text ++ rest)) =
      (text ++ (splitArgument finish rest).1) :: readArguments (splitArgument finish rest).2 := by
  obtain ⟨c, others, rfl⟩ := List.exists_cons_of_ne_nil hne
  have hblank : isBlank c = false := by simpa using htext.1
  have hskip : skipBlanks (blanks.text ++ (c :: others ++ rest)) = c :: (others ++ rest) :=
    dropWhile_append blanks.isBlank_of_mem (startsOutside_cons.2 hblank)
  rw [readArguments_eq, hskip]
  simp only [htext.2.splitArgument_append, List.cons_append]

/-- A text that is crossed in one go is an argument, if a blank or nothing is behind it. -/
theorem readArguments_append (blanks : Blanks) {text rest : List Char} (hne : text ≠ [])
    (htext : Crosses .outside text .outside) (hrest : ∀ c ∈ rest.head?, isBlank c = true) :
    readArguments (blanks.text ++ (text ++ rest)) = text :: readArguments rest := by
  have hempty : Crosses .outside [] .outside := rfl
  have hsplit : splitArgument .outside rest = ([], rest) := splitArgument_append hempty hrest
  rw [readArguments_crossed blanks hne htext, hsplit, List.append_nil]

/-- A text that is crossed in one go is the last argument where nothing is behind it, its quotes
open or not. -/
theorem readArguments_last (blanks : Blanks) {text : List Char} {finish : Quoting}
    (hne : text ≠ []) (htext : Crosses .outside text finish) :
    readArguments (blanks.text ++ text) = [text] := by
  have hlast := readArguments_crossed blanks hne htext []
  rwa [List.append_nil, splitArgument, List.append_nil, readArguments_nil] at hlast

end TagToken

/-! ### Expressions are crossed -/

namespace Derivation

open TagToken

theorem isQuote_eq_false_of_isWord {c : Char} (hword : isWord c = true) :
    Literal.isQuote c = false := by
  refine Bool.eq_false_iff.2 fun hquote ↦ ?_
  rcases (Literal.isQuote_iff c).1 hquote with rfl | rfl <;> exact absurd hword (by decide)

theorem isBlank_eq_false_of_isWord {c : Char} (hword : isWord c = true) : isBlank c = false := by
  refine Bool.eq_false_iff.2 fun hblank ↦ ?_
  rw [isWord_eq_false_of_isBlank hblank] at hword
  cases hword

/-- Words have neither blanks nor quotes in them. -/
theorem crosses_words {text : List Char} (hwords : ∀ c ∈ text, isWord c = true) :
    Crosses .outside text .outside := by
  induction text with
  | nil => rfl
  | cons c text ih =>
    have hword := hwords c List.mem_cons_self
    exact crosses_cons_outside (isBlank_eq_false_of_isWord hword) (isQuote_eq_false_of_isWord hword)
      (ih fun other hother ↦ hwords other (List.mem_cons_of_mem _ hother))

theorem Digits.crosses (digits : Digits) : Crosses .outside digits.text .outside :=
  crosses_words fun c hc ↦ isWord_of_isDigit (digits.isDigit_of_mem c hc)

theorem Name.crosses (name : Name) : Crosses .outside name.text .outside :=
  crosses_words name.isWord_of_mem

theorem NumberForm.crosses (form : NumberForm) : Crosses .outside form.text .outside := by
  cases form with
  | integer digits _ _ => exact digits.crosses
  | decimal whole fraction _ =>
    exact whole.crosses.append (crosses_cons_outside (by decide) (by decide) fraction.crosses)

/-- What stands inside quotes does not close them. -/
theorem QuotedItem.crosses {quote : Char} {item : QuotedItem}
    (hitem : ∀ c, item = .plain c → c ≠ quote ∧ c ≠ '\\') :
    Crosses (.inside quote) item.text (.inside quote) := by
  cases item with
  | plain c =>
    obtain ⟨hquote, hbackslash⟩ := hitem c rfl
    refine ⟨by simp, ?_⟩
    rw [Quoting.after, if_neg hbackslash, if_neg hquote]
    rfl
  | escaped c => exact ⟨by simp, by simp [Quoting.after], rfl⟩

theorem ne_backslash_of_isQuote {quote : Char} (hquote : Literal.isQuote quote = true) :
    quote ≠ '\\' := by
  rcases (Literal.isQuote_iff quote).1 hquote with rfl | rfl <;> decide

theorem crosses_opening {quote : Char} (hquote : Literal.isQuote quote = true) :
    Crosses .outside [quote] (.inside quote) := by
  refine ⟨?_, ?_⟩
  · rcases (Literal.isQuote_iff quote).1 hquote with rfl | rfl <;> decide
  · rw [Quoting.after, hquote]
    rfl

theorem crosses_closing {quote : Char} (hquote : Literal.isQuote quote = true) :
    Crosses (.inside quote) [quote] .outside := by
  refine ⟨by simp, ?_⟩
  rw [Quoting.after, if_neg (ne_backslash_of_isQuote hquote), if_pos rfl]
  rfl

/-- The quotes of a quoted text close where the reader of arguments sees them close. -/
theorem TextForm.crosses (form : TextForm) : Crosses .outside form.text .outside := by
  have hquote : Literal.isQuote form.quote = true := (Literal.isQuote_iff _).2 form.isQuote
  have hinside : Crosses (.inside form.quote) (form.items.flatMap QuotedItem.text)
      (.inside form.quote) := by
    refine crosses_flatMap fun item hitem ↦ QuotedItem.crosses ?_
    rintro c rfl
    exact form.ne_of_plain_mem c hitem
  exact (crosses_opening hquote).append (hinside.append (crosses_closing hquote))

theorem LookupForm.crosses (form : LookupForm) : Crosses .outside form.text .outside := by
  refine form.first.crosses.append (crosses_flatMap fun name _ ↦ ?_)
  exact crosses_cons_outside (by decide) (by decide) name.crosses

/-- An operand is crossed in one go, with the blanks in its quotes. -/
theorem OperandForm.crosses (form : OperandForm) : Crosses .outside form.spelling .outside := by
  cases form with
  | number form => exact form.crosses
  | text form => exact form.crosses
  | lookup form => exact form.crosses

/-- A filter without blanks before its arguments is crossed in one go. -/
theorem FilterForm.Tight.crosses {form : FilterForm} (htight : form.Tight) :
    Crosses .outside form.text .outside := by
  have hargument : ∀ argument ∈ form.arguments, Crosses .outside argument.text .outside := by
    intro argument hargument
    rw [ArgumentForm.text, htight argument hargument]
    exact argument.operand.crosses
  have harguments : Crosses .outside form.argumentText .outside := by
    unfold FilterForm.argumentText
    split
    · rfl
    · rename_i first others hforms
      rw [hforms] at hargument
      refine crosses_cons_outside (by decide) (by decide) ?_
      refine (hargument first List.mem_cons_self).append (crosses_flatMap fun other hother ↦ ?_)
      exact crosses_cons_outside (by decide) (by decide)
        (hargument other (List.mem_cons_of_mem _ hother))
  exact crosses_cons_outside (by decide) (by decide) (form.name.crosses.append harguments)

variable {options : Options} {derivation : Derivation options}

/-- An expression that has its blanks inside quoted texts is one argument. -/
theorem Tight.crosses (htight : derivation.Tight) : Crosses .outside derivation.text .outside := by
  rw [Derivation.text, htight.leading_eq, htight.trailing_eq, List.nil_append, List.append_nil]
  exact derivation.operand.crosses.append
    (crosses_flatMap fun filter hfilter ↦ (htight.filters filter hfilter).crosses)

theorem text_ne_nil (derivation : Derivation options) : derivation.text ≠ [] := by
  obtain ⟨c, tail, hspelling, -⟩ := derivation.operand.exists_cons
  simp [Derivation.text, hspelling]

end Derivation

/-- A source that reads as an expression and has blanks inside its quoted texts only. -/
def Expression.Tight (options : Options) (source : String) : Prop :=
  ∃ derivation : Derivation options, derivation.text = source.toList ∧ derivation.Tight

/-- The text that an expression is displayed as is tight. -/
theorem Expression.WellFormed.tight_display {options : Options} {tree : Expression}
    (htree : tree.WellFormed options) : Expression.Tight options tree.display := by
  obtain ⟨derivation, htext, -, htight⟩ := htree.exists_tight
  exact ⟨derivation, by rw [htext, Expression.display, String.toList_ofList], htight⟩

/-- A tight text can be read. -/
theorem Expression.Tight.exists_scan {options : Options} {source : String}
    (htight : Expression.Tight options source) :
    ∃ tree, Expression.scan options source = .ok tree := by
  obtain ⟨derivation, htext, -⟩ := htight
  refine ⟨derivation.tree, Expression.scan_eq_ok_iff.2 ?_⟩
  rw [← htext]
  exact Scan.expression_text derivation

/-! ### Sources in a row -/

/-- Sources in a row, each with the blanks before it, and the blanks behind the last. Between two
sources there is a blank at least. -/
structure Layout where
  pieces : List (Blanks × String)
  trailing : Blanks
  parted : ∀ piece ∈ pieces.tail, piece.1.text ≠ []

namespace Layout

/-- The sources that are laid out. -/
def sources (layout : Layout) : List String :=
  layout.pieces.map Prod.snd

/-- Pieces one after the other, and blanks behind the last. -/
def spell (pieces : List (Blanks × String)) (trailing : Blanks) : List Char :=
  pieces.flatMap (fun piece ↦ piece.1.text ++ piece.2.toList) ++ trailing.text

/-- The content of a tag that the sources and the blanks make. -/
def content (layout : Layout) : String :=
  String.ofList (spell layout.pieces layout.trailing)

/-- Sources that are parted by blanks begin with one, if any is left. -/
theorem isBlank_of_mem_head?_spell {pieces : List (Blanks × String)} {trailing : Blanks}
    (hparted : ∀ piece ∈ pieces, piece.1.text ≠ []) :
    ∀ c ∈ (spell pieces trailing).head?, isBlank c = true := by
  intro c hc
  cases pieces with
  | nil => exact trailing.isBlank_of_mem c (List.mem_of_mem_head? hc)
  | cons piece pieces =>
    obtain ⟨first, others, hfirst⟩ :=
      List.exists_cons_of_ne_nil (hparted piece List.mem_cons_self)
    rw [spell, List.flatMap_cons, hfirst] at hc
    obtain rfl : first = c := Option.some.inj hc
    exact piece.1.isBlank_of_mem first (hfirst ▸ List.mem_cons_self)

/-- The induction is on the pieces. Blanks behind the last are told from it unless quotes are open
there. -/
theorem readArguments_spell {pieces : List (Blanks × String)} {trailing : Blanks}
    {finish : TagToken.Quoting} (hparted : ∀ piece ∈ pieces.tail, piece.1.text ≠ [])
    (hsplits : TagToken.Splits (pieces.map fun piece ↦ piece.2.toList) finish)
    (htrailing : finish = .outside ∨ trailing.text = []) :
    TagToken.readArguments (spell pieces trailing) = pieces.map fun piece ↦ piece.2.toList := by
  induction pieces with
  | nil => exact TagToken.readArguments_blanks trailing
  | cons piece pieces ih =>
    have hspell : spell (piece :: pieces) trailing =
        piece.1.text ++ (piece.2.toList ++ spell pieces trailing) := by
      simp [spell]
    have hrest : ∀ c ∈ (spell pieces trailing).head?, isBlank c = true :=
      isBlank_of_mem_head?_spell hparted
    have hthere : ∀ other ∈ pieces.tail, other.1.text ≠ [] :=
      fun other hother ↦ hparted other (List.mem_of_mem_tail hother)
    rw [List.map_cons] at hsplits ⊢
    generalize hsources : pieces.map (fun piece ↦ piece.2.toList) = sources at hsplits
    cases hsplits with
    | last hne hcrosses =>
      obtain rfl := List.map_eq_nil_iff.1 hsources
      rcases htrailing with rfl | hnone
      · rw [hspell, TagToken.readArguments_append piece.1 hne hcrosses hrest]
        exact congrArg _ (TagToken.readArguments_blanks trailing)
      · have hempty : spell [] trailing = [] := hnone
        rw [hspell, hempty, List.append_nil, TagToken.readArguments_last piece.1 hne hcrosses]
    | more hne hcrosses hmore =>
      rw [hspell, TagToken.readArguments_append piece.1 hne hcrosses hrest,
        ih hthere (hsources ▸ hmore), hsources]

/-- Tight sources are arguments, each of them. -/
theorem splits_of_tight {options : Options} {sources : List String}
    (htight : ∀ source ∈ sources, Expression.Tight options source) :
    TagToken.Splits (sources.map String.toList) .outside := by
  induction sources with
  | nil => exact .none
  | cons source sources ih =>
    obtain ⟨derivation, htext, hderivation⟩ := htight source List.mem_cons_self
    rw [List.map_cons, ← htext]
    exact .more derivation.text_ne_nil hderivation.crosses
      (ih fun other hother ↦ htight other (List.mem_cons_of_mem _ hother))

/-- The content is split into the sources. -/
theorem arguments_content {options : Options} {layout : Layout}
    (htight : ∀ source ∈ layout.sources, Expression.Tight options source) (name : String) :
    TagToken.arguments ⟨name, layout.content⟩ = layout.sources := by
  have hsplits := splits_of_tight htight
  rw [sources, List.map_map] at hsplits
  rw [TagToken.arguments, content, String.toList_ofList,
    readArguments_spell layout.parted hsplits (Or.inl rfl)]
  simp [sources]

end Layout

end Stencil
