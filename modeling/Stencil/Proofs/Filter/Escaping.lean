import Mathlib.Data.List.Basic
import Stencil.Compiler.Compiled
import Stencil.Filter.Builtin
import Stencil.Proofs.Text.CharNames

/-!
What escaping keeps out and what it keeps. An escaped text has none of the characters of markup but
the ampersands that begin entities (`Html.IsEscaped`), and the entities, read from left to right,
give the text back (`Html.replace_escape`). Line breaks that are put into an escaped text are the
only place where its angle brackets are, so they are told from what was there before
(`Html.OnlyBreaks`, `Html.replace_breakLines`). An expression that ends in the filter `escape` thus
shows a text without markup, and no two values with different texts are shown alike
(`Html.escape_reversible`).
-/

set_option autoImplicit false
set_option relaxedAutoImplicit false

namespace Stencil.Html

open Text

/-- The five entities. -/
def entities : CharNames where
  mark := '&'
  entries := [("&amp;".toList, '&'), ("&lt;".toList, '<'), ("&gt;".toList, '>'),
    ("&quot;".toList, '"'), ("&#39;".toList, '\'')]
  head?_eq := by decide
  eq_of_prefix := by decide

/-- The element that breaks a line, as the name of the line feed. -/
def lineBreaks : CharNames where
  mark := '<'
  entries := [("<br />".toList, '\n')]
  head?_eq := by decide
  eq_of_prefix := by decide

/-- A text without the characters of markup, except for ampersands that begin entities. -/
structure IsEscaped (text : List Char) : Prop where
  not_mem : ∀ c ∈ ['<', '>', '"', '\''], c ∉ text
  entity : ∀ front rest, text = front ++ '&' :: rest →
    ∃ entry ∈ entities.entries, entry.1 <+: '&' :: rest

/-- A text whose angle brackets are the ends of line breaks, and which has no line feeds. -/
structure OnlyBreaks (text : List Char) : Prop where
  opens : ∀ front rest, text = front ++ '<' :: rest → "<br />".toList <+: '<' :: rest
  closes : ∀ front rest, text = front ++ '>' :: rest → "<br />".toList <:+ front ++ ['>']
  not_mem : '\n' ∉ text

/-- The number of places in the text where the pattern begins. -/
def occurrences (pattern text : List Char) : Nat :=
  text.tails.countP pattern.isPrefixOf

/-- Where a text is written part by part, a character that only some words have stands in one of
these words. -/
theorem exists_word_of_flatMap_eq {spell : Char → List Char} {words : List (List Char)} {c : Char}
    {text front rest : List Char} (hparts : ∀ part ∈ text, spell part ∈ words ∨ c ∉ spell part)
    (htext : text.flatMap spell = front ++ c :: rest) :
    ∃ word ∈ words, ∃ before left right after, word = left ++ c :: right ∧
      front = before ++ left ∧ rest = right ++ after := by
  induction text generalizing front with
  | nil => simp at htext
  | cons part text ih =>
    have hlater : ∀ part ∈ text, spell part ∈ words ∨ c ∉ spell part :=
      fun other hother ↦ hparts other (List.mem_cons_of_mem _ hother)
    rw [List.flatMap_cons] at htext
    rcases List.append_eq_append_iff.1 htext with ⟨more, rfl, hmore⟩ | ⟨others, hpart, hrest⟩
    · obtain ⟨word, hword, before, left, right, after, hsplit, hbefore, hafter⟩ := ih hlater hmore
      exact ⟨word, hword, spell part ++ before, left, right, after, hsplit,
        by rw [hbefore, List.append_assoc], hafter⟩
    · cases others with
      | nil =>
        have hmore : text.flatMap spell = [] ++ c :: rest := hrest.symm
        obtain ⟨word, hword, before, left, right, after, hsplit, hbefore, hafter⟩ := ih hlater hmore
        refine ⟨word, hword, front ++ before, left, right, after, hsplit, ?_, hafter⟩
        rw [List.append_assoc, ← hbefore, List.append_nil]
      | cons first others =>
        obtain ⟨rfl, rfl⟩ := List.cons.inj hrest
        have hmem : c ∈ spell part := hpart ▸ List.mem_append_right front List.mem_cons_self
        have hword := (hparts part List.mem_cons_self).resolve_right (absurd hmem)
        exact ⟨spell part, hword, [], front, others, text.flatMap spell, hpart, rfl, rfl⟩

/-! ### Entities -/

/-- A character is written by its entity or as itself, and then it is not one that has an entity. -/
theorem escapeChar_cases (c : Char) :
    (escapeChar c, c) ∈ entities.entries ∨
      escapeChar c = [c] ∧ c ∉ ['&', '<', '>', '"', '\''] := by
  by_cases hc : c ∈ ['&', '<', '>', '"', '\'']
  · left
    simp only [List.mem_cons, List.not_mem_nil, or_false] at hc
    rcases hc with rfl | rfl | rfl | rfl | rfl <;> decide
  · refine Or.inr ⟨?_, hc⟩
    simp only [List.mem_cons, List.not_mem_nil, or_false, not_or] at hc
    simp [escapeChar, entity?, hc]

/-- A character is written by its name, or as itself if it is not the mark. -/
theorem escapeChar_spells (c : Char) : entities.Spells c (escapeChar c) := by
  rcases escapeChar_cases c with hname | ⟨hself, hc⟩
  · exact Or.inl hname
  · exact Or.inr ⟨hself, fun hmark ↦ hc (hmark ▸ List.mem_cons_self)⟩

/-- The entities of an escaped text, read from left to right, give the text back. -/
theorem replace_escape (text : String) :
    entities.replace (escape text).toList = text.toList := by
  rw [escape, String.toList_ofList]
  exact CharNames.replace_flatMap fun c _ ↦ escapeChar_spells c

/-- An escaped text has no characters of markup in it but the ampersands that begin entities. -/
theorem isEscaped_escape (text : String) : IsEscaped (escape text).toList := by
  rw [escape, String.toList_ofList]
  constructor
  · intro c hc hmem
    obtain ⟨part, -, hpart⟩ := List.mem_flatMap.1 hmem
    rcases escapeChar_cases part with hname | ⟨hself, hkept⟩
    · have hnames : ∀ entry ∈ entities.entries, entry.1.all (· ∉ ['<', '>', '"', '\'']) = true := by
        decide
      have hkept := List.all_eq_true.1 (hnames _ hname) c hpart
      exact of_decide_eq_true hkept hc
    · rw [hself, List.mem_singleton] at hpart
      exact hkept (hpart ▸ List.mem_cons_of_mem _ hc)
  · intro front rest htext
    have hparts : ∀ part ∈ text.toList,
        escapeChar part ∈ entities.entries.map Prod.fst ∨ '&' ∉ escapeChar part := by
      intro part _
      rcases escapeChar_cases part with hname | ⟨hself, hkept⟩
      · exact Or.inl (List.mem_map_of_mem hname)
      · refine Or.inr fun hmem ↦ hkept ?_
        rw [hself, List.mem_singleton] at hmem
        exact hmem ▸ List.mem_cons_self
    obtain ⟨word, hword, before, left, right, after, hsplit, -, rfl⟩ :=
      exists_word_of_flatMap_eq hparts htext
    obtain ⟨entry, hentry, rfl⟩ := List.mem_map.1 hword
    have htails : ∀ entry ∈ entities.entries, '&' ∉ entry.1.tail := by decide
    obtain ⟨tail, hname⟩ := CharNames.exists_cons_of_mem_entries hentry
    have htail : '&' ∉ tail := by
      have hnone := htails entry hentry
      rwa [hname] at hnone
    have hends : [] ++ '&' :: tail = left ++ '&' :: right := hname.symm.trans hsplit
    obtain ⟨-, -, rfl⟩ := (List.append_cons_inj_of_notMem List.not_mem_nil htail).1 hends
    exact ⟨entry, hentry, after, by rw [hname]; rfl⟩

/-- Line feeds are no characters of markup. -/
theorem count_escape (text : String) :
    (escape text).toList.count '\n' = text.toList.count '\n' := by
  rw [escape, String.toList_ofList]
  induction text.toList with
  | nil => rfl
  | cons c rest ih =>
    have hc : (escapeChar c).count '\n' = [c].count '\n' := by
      rcases escapeChar_cases c with hname | ⟨hself, -⟩
      · have hnames : ∀ entry ∈ entities.entries, entry.1.count '\n' = [entry.2].count '\n' := by
          decide
        exact hnames _ hname
      · rw [hself]
    rw [List.flatMap_cons, List.count_append, ih, hc, ← List.count_append, List.singleton_append]

/-! ### Line breaks -/

/-- What a character becomes where lines are broken. -/
def breakChar (c : Char) : List Char :=
  if c = '\n' then lineBreak.toList else [c]

theorem toList_breakLines (text : String) :
    (breakLines text).toList = text.toList.flatMap breakChar := by
  rw [breakLines, String.toList_ofList]
  rfl

/-- A line break, or a character that is none of its ends and no line feed. -/
theorem breakChar_cases {c : Char} (hc : c ∉ ['<', '>']) :
    (c = '\n' ∧ breakChar c = "<br />".toList) ∨
      (breakChar c = [c] ∧ c ∉ ['<', '>', '\n']) := by
  by_cases hfeed : c = '\n'
  · exact Or.inl ⟨hfeed, if_pos hfeed⟩
  · refine Or.inr ⟨if_neg hfeed, ?_⟩
    simp only [List.mem_cons, List.not_mem_nil, or_false, not_or] at hc ⊢
    exact ⟨hc.1, hc.2, hfeed⟩

section Brackets

variable {text : String}

/-- The line breaks, read from left to right, give the text back. -/
theorem replace_breakLines (htext : '<' ∉ text.toList) :
    lineBreaks.replace (breakLines text).toList = text.toList := by
  rw [toList_breakLines]
  refine CharNames.replace_flatMap fun c hc ↦ ?_
  unfold breakChar
  split
  · rename_i hfeed
    exact Or.inl (hfeed ▸ List.mem_cons_self)
  · refine Or.inr ⟨rfl, ?_⟩
    rintro rfl
    exact htext hc

/-- A bracket stands in a line break, at its place in it. -/
theorem exists_break_of_bracket {bracket : Char} (hbracket : bracket ∈ ['<', '>'])
    (htext : ∀ c ∈ ['<', '>'], c ∉ text.toList) {left right : List Char}
    (hbreak : "<br />".toList = left ++ bracket :: right) (hleft : bracket ∉ left)
    (hright : bracket ∉ right) {front rest : List Char}
    (hsplit : (breakLines text).toList = front ++ bracket :: rest) :
    ∃ before after, front = before ++ left ∧ rest = right ++ after := by
  rw [toList_breakLines] at hsplit
  have hparts : ∀ part ∈ text.toList,
      breakChar part ∈ ["<br />".toList] ∨ bracket ∉ breakChar part := by
    intro part hpart
    rcases breakChar_cases fun hmem ↦ htext part hmem hpart with ⟨-, hname⟩ | ⟨hself, hkept⟩
    · exact Or.inl (List.mem_singleton.2 hname)
    · refine Or.inr fun hmem ↦ hkept ?_
      rw [hself, List.mem_singleton] at hmem
      exact hmem ▸ List.mem_append_left ['\n'] hbracket
  obtain ⟨word, hword, before, others, more, after, hends, hfront, hrest⟩ :=
    exists_word_of_flatMap_eq hparts hsplit
  rw [List.mem_singleton.1 hword, hbreak] at hends
  obtain ⟨rfl, -, rfl⟩ := (List.append_cons_inj_of_notMem hleft hright).1 hends
  exact ⟨before, after, hfront, hrest⟩

/-- Where the text has no angle brackets, those of line breaks are all there are. -/
theorem onlyBreaks_breakLines (htext : ∀ c ∈ ['<', '>'], c ∉ text.toList) :
    OnlyBreaks (breakLines text).toList := by
  constructor
  · intro front rest hsplit
    have hbreak : "<br />".toList = [] ++ '<' :: "br />".toList := rfl
    obtain ⟨-, after, -, rfl⟩ :=
      exists_break_of_bracket (by decide) htext hbreak (by decide) (by decide) hsplit
    exact ⟨after, rfl⟩
  · intro front rest hsplit
    have hbreak : "<br />".toList = "<br /".toList ++ '>' :: [] := rfl
    obtain ⟨before, -, rfl, -⟩ :=
      exists_break_of_bracket (by decide) htext hbreak (by decide) (by decide) hsplit
    exact ⟨before, by rw [List.append_assoc]; rfl⟩
  · rw [toList_breakLines]
    intro hmem
    obtain ⟨part, hpart, hfeed⟩ := List.mem_flatMap.1 hmem
    rcases breakChar_cases fun hmem ↦ htext part hmem hpart with ⟨-, hname⟩ | ⟨hself, hkept⟩
    · rw [hname] at hfeed
      exact absurd hfeed (by decide)
    · rw [hself, List.mem_singleton] at hfeed
      exact hkept (hfeed ▸ by decide)

theorem occurrences_cons (pattern : List Char) (c : Char) (rest : List Char) :
    occurrences pattern (c :: rest) =
      occurrences pattern rest + if pattern.isPrefixOf (c :: rest) then 1 else 0 := by
  rw [occurrences, List.tails_cons, List.countP_cons, occurrences]

/-- The induction is on the text. Inside a line break no other begins, as only its first character
is a left bracket. -/
theorem occurrences_flatMap_breakChar {text : List Char} (htext : '<' ∉ text) :
    occurrences lineBreak.toList (text.flatMap breakChar) = text.count '\n' := by
  induction text with
  | nil => rfl
  | cons c rest ih =>
    rw [List.mem_cons, not_or] at htext
    have hrest := ih htext.2
    have hnone {other : Char} (hother : '<' ≠ other) (more : List Char) :
        occurrences lineBreak.toList (other :: more) = occurrences lineBreak.toList more := by
      rw [occurrences_cons, if_neg, Nat.add_zero]
      simp [lineBreak, hother]
    rw [List.flatMap_cons, List.count_cons]
    by_cases hfeed : c = '\n'
    · have hbreak : breakChar c ++ rest.flatMap breakChar =
          '<' :: 'b' :: 'r' :: ' ' :: '/' :: '>' :: rest.flatMap breakChar := by
        rw [breakChar, if_pos hfeed]
        rfl
      have hbegins : lineBreak.toList.isPrefixOf
          ('<' :: 'b' :: 'r' :: ' ' :: '/' :: '>' :: rest.flatMap breakChar) = true := by
        simp [lineBreak]
      rw [hbreak, occurrences_cons, if_pos hbegins]
      simp [hnone, hrest, hfeed]
    · rw [breakChar, if_neg hfeed, List.singleton_append, hnone htext.1, hrest]
      simp [hfeed]

end Brackets

/-! ### Filters -/

theorem find?_builtin_escape : Filters.builtin.find? "escape" = some Filter.escape := by
  simp [Filters.builtin, Filters.find?_register]

theorem find?_builtin_linebreaksbr :
    Filters.builtin.find? "linebreaksbr" = some Filter.breakLines := by
  simp [Filters.builtin, Filters.find?_register]

/-- What the filter for line breaks makes of a text. -/
theorem breakLines_escape (text : String) :
    OnlyBreaks (breakLines (escape text)).toList ∧
    occurrences "<br />".toList (breakLines (escape text)).toList = text.toList.count '\n' ∧
    entities.replace (lineBreaks.replace (breakLines (escape text)).toList) = text.toList := by
  have hescaped := isEscaped_escape text
  have hopening : '<' ∉ (escape text).toList := hescaped.not_mem '<' (by decide)
  have hbrackets : ∀ c ∈ ['<', '>'], c ∉ (escape text).toList := fun c hc ↦
    hescaped.not_mem c (List.mem_append_left ['"', '\''] hc)
  refine ⟨onlyBreaks_breakLines hbrackets, ?_, ?_⟩
  · rw [toList_breakLines, ← count_escape]
    exact occurrences_flatMap_breakChar hopening
  · rw [replace_breakLines hopening, replace_escape]

/-- Escaping keeps markup out of a text and can be undone; so can breaking the lines of what was
escaped. Where the last filter of an expression is the built-in `escape`, what it shows is without
markup and tells the text of the value before that filter. -/
theorem escape_reversible :
    (∀ text : String, IsEscaped (escape text).toList ∧
      entities.replace (escape text).toList = text.toList) ∧
    (∃ filter, Filters.builtin.find? "linebreaksbr" = some filter ∧
      ∀ (value : Value) (arguments : List Value), ∃ shown,
        filter value arguments = .ok (.text shown) ∧ OnlyBreaks shown.toList ∧
        occurrences "<br />".toList shown.toList = value.render.toList.count '\n' ∧
        entities.replace (lineBreaks.replace shown.toList) = value.render.toList) ∧
    ∀ (compiled : Compiled) (shorter : Expression) (last : FilterCall) (context : Context)
      (result : Value), compiled.expression = shorter.withFilter last →
      compiled.filters.find? last.name = Filters.builtin.find? "escape" →
      compiled.evaluate context = .ok result →
      ∃ value shown, shorter.evaluate compiled.filters context = .ok value ∧
        compiled.render context = .ok shown ∧ IsEscaped shown.toList ∧
        entities.replace shown.toList = value.render.toList := by
  refine ⟨fun text ↦ ⟨isEscaped_escape text, replace_escape text⟩, ?_, ?_⟩
  · exact ⟨_, find?_builtin_linebreaksbr, fun value _ ↦ ⟨_, rfl, breakLines_escape value.render⟩⟩
  · intro compiled shorter last context result hlast hfind hresult
    rw [Compiled.evaluate, hlast, Expression.evaluate_withFilter] at hresult
    cases hvalue : shorter.evaluate compiled.filters context with
    | error failure =>
      rw [hvalue] at hresult
      cases hresult
    | ok value =>
      have happly : FilterCall.apply compiled.filters context value last =
          .ok (.text (escape value.render)) := by
        rw [FilterCall.apply_of_find?_eq_some (hfind.trans find?_builtin_escape)]
        rfl
      have hrender : compiled.render context = .ok (escape value.render) := by
        rw [Compiled.render, Compiled.evaluate, hlast, Expression.evaluate_withFilter, hvalue,
          Except.bind, happly]
        rfl
      exact ⟨value, _, rfl, hrender, isEscaped_escape _, replace_escape _⟩

/-- A list of texts with markup, an entity and a line feed in them. -/
theorem escape_reversible_list :
    (⟨0, "items|escape", ⟨.lookup ["items"], [⟨"escape", []⟩]⟩, .builtin⟩ : Compiled).evaluate
        ⟨[("items", .list [.text "<br />\n", .text "&lt;"])]⟩ =
      .ok (.text "&lt;br /&gt;\n&amp;lt;") ∧
    ∃ value shown,
      (⟨.lookup ["items"], []⟩ : Expression).evaluate .builtin
          ⟨[("items", .list [.text "<br />\n", .text "&lt;"])]⟩ = .ok value ∧
      (⟨0, "items|escape", ⟨.lookup ["items"], [⟨"escape", []⟩]⟩, .builtin⟩ : Compiled).render
          ⟨[("items", .list [.text "<br />\n", .text "&lt;"])]⟩ = .ok shown ∧
      IsEscaped shown.toList ∧ entities.replace shown.toList = value.render.toList := by
  have hvalue : (⟨0, "items|escape", ⟨.lookup ["items"], [⟨"escape", []⟩]⟩, .builtin⟩ :
      Compiled).evaluate ⟨[("items", .list [.text "<br />\n", .text "&lt;"])]⟩ =
        .ok (.text "&lt;br /&gt;\n&amp;lt;") := by
    rw [Compiled.evaluate, Expression.evaluate, List.foldlM_cons,
      FilterCall.apply_of_find?_eq_some find?_builtin_escape]
    rfl
  exact ⟨hvalue, escape_reversible.2.2 _ ⟨.lookup ["items"], []⟩ ⟨"escape", []⟩ _ _ rfl rfl hvalue⟩

end Stencil.Html
