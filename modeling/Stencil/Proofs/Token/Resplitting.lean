import Stencil.Proofs.Token.Splitting

/-!
Splitting a content into arguments loses blanks between them and nothing else. What is split off
begins with a character that is not blank and is crossed by the reader of arguments
(`TagToken.splitArgument_cases`), so that every content is laid out from its own arguments
(`Layout.exists_spell_eq`). The reader is outside quotes behind each argument but the last
(`TagToken.splits_readArguments`). The arguments are therefore found again in every layout of them
that ends with the last, whether quotes are open there or not (`TagToken.arguments_resplit`).
-/

set_option autoImplicit false
set_option relaxedAutoImplicit false

namespace Stencil

open Stencil.Derivation Text

namespace TagToken

/-- An argument reaches to the end of the text, or to a blank outside quotes. -/
theorem splitArgument_cases (start : Quoting) (text : List Char) :
    (∃ finish, Crosses start text finish ∧ splitArgument start text = (text, [])) ∨
      ∃ front c rest, text = front ++ c :: rest ∧ isBlank c = true ∧
        Crosses start front .outside ∧ splitArgument start text = (front, c :: rest) := by
  induction text generalizing start with
  | nil => exact Or.inl ⟨start, rfl, by rw [splitArgument]⟩
  | cons c text ih =>
    by_cases hend : start = .outside ∧ isBlank c = true
    · exact Or.inr ⟨[], c, text, rfl, hend.2, hend.1, by rw [splitArgument, if_pos hend]⟩
    · rcases ih (start.after c) with ⟨finish, hcrosses, hsplit⟩ |
        ⟨front, found, rest, htext, hblank, hcrosses, hsplit⟩
      · exact Or.inl ⟨finish, ⟨hend, hcrosses⟩, by rw [splitArgument, if_neg hend, hsplit]⟩
      · refine Or.inr ⟨c :: front, found, rest, by rw [htext]; rfl, hblank, ⟨hend, hcrosses⟩, ?_⟩
        rw [splitArgument, if_neg hend, hsplit]

/-- What is split off behind the first character of an argument, with that character. -/
theorem crosses_of_splitArgument {text rest others after : List Char} {c : Char}
    (hstart : skipBlanks text = c :: rest)
    (hsplit : splitArgument (Quoting.outside.after c) rest = (others, after)) :
    (∃ finish, Crosses .outside (c :: others) finish ∧ rest = others ∧ after = []) ∨
      ∃ found more, after = found :: more ∧ isBlank found = true ∧ rest = others ++ after ∧
        Crosses .outside (c :: others) .outside := by
  have hfirst : ¬(Quoting.outside = .outside ∧ isBlank c = true) := by
    rw [(leading_append_cons hstart).2]
    exact fun habsurd ↦ Bool.false_ne_true habsurd.2
  rcases splitArgument_cases (Quoting.outside.after c) rest with ⟨finish, hcrosses, hall⟩ |
    ⟨front, found, more, htext, hfound, hcrosses, hfront⟩
  · obtain ⟨rfl, rfl⟩ := Prod.mk.inj (hall.symm.trans hsplit)
    exact Or.inl ⟨finish, ⟨hfirst, hcrosses⟩, rfl, rfl⟩
  · obtain ⟨rfl, rfl⟩ := Prod.mk.inj (hfront.symm.trans hsplit)
    exact Or.inr ⟨found, more, rfl, hfound, htext, hfirst, hcrosses⟩

/-- Behind every argument but the last the reader is outside quotes. -/
theorem splits_readArguments (text : List Char) :
    ∃ finish, Splits (readArguments text) finish := by
  fun_induction readArguments text with
  | case1 => exact ⟨.outside, .none⟩
  | case2 text c rest hstart others after hsplit hlt ih =>
    rcases crosses_of_splitArgument hstart hsplit with ⟨finish, hcrosses, -, rfl⟩ |
      ⟨found, more, -, -, -, hcrosses⟩
    · rw [readArguments_nil]
      exact ⟨finish, .last (List.cons_ne_nil c others) hcrosses⟩
    · obtain ⟨finish, hmore⟩ := ih
      exact ⟨finish, .more (List.cons_ne_nil c others) hcrosses hmore⟩

/-- Each of the texts is an argument of its own. -/
theorem Splits.exists_crosses {texts : List (List Char)} {finish : Quoting}
    (hsplits : Splits texts finish) {text : List Char} (htext : text ∈ texts) :
    text ≠ [] ∧ ∃ behind, Crosses .outside text behind := by
  induction hsplits with
  | none => cases htext
  | last hne hcrosses =>
    obtain rfl := List.mem_singleton.1 htext
    exact ⟨hne, _, hcrosses⟩
  | more hne hcrosses _ ih =>
    rcases List.mem_cons.1 htext with rfl | hmore
    · exact ⟨hne, _, hcrosses⟩
    · exact ih hmore

end TagToken

namespace Layout

/-- Every text is laid out from its arguments. The induction follows the reader; where it goes on
behind an argument there is a blank, so that the next argument has blanks before it. -/
theorem exists_spell_eq (text : List Char) :
    ∃ layout : Layout, spell layout.pieces layout.trailing = text ∧
      (layout.pieces.map fun piece ↦ piece.2.toList) = TagToken.readArguments text ∧
      ((∃ c rest, text = c :: rest ∧ isBlank c = true) →
        ∀ piece ∈ layout.pieces, piece.1.text ≠ []) := by
  fun_induction TagToken.readArguments text with
  | case1 text hstart =>
    have hblanks : ∀ c ∈ text, isBlank c = true := List.dropWhile_eq_nil_iff.1 hstart
    exact ⟨⟨[], ⟨text, hblanks⟩, by simp⟩, by simp [spell], rfl, by simp⟩
  | case2 text c rest hstart others after hsplit hlt ih =>
    obtain ⟨htext, hblank⟩ := leading_append_cons hstart
    have hleading (hfirst : ∃ found more, text = found :: more ∧ isBlank found = true) :
        (Blanks.leading text).text ≠ [] := by
      intro hnone
      obtain ⟨found, more, rfl, hfound⟩ := hfirst
      rw [hnone, List.nil_append] at htext
      rw [(List.cons.inj htext).1, hfound] at hblank
      cases hblank
    rcases TagToken.crosses_of_splitArgument hstart hsplit with ⟨-, -, rfl, rfl⟩ |
      ⟨found, more, hafter, hfound, rfl, -⟩
    · refine ⟨⟨[(Blanks.leading text, String.ofList (c :: rest))], ⟨[], by simp⟩, by simp⟩, ?_, ?_,
        fun hfirst piece hpiece ↦ ?_⟩
      · simpa [spell] using htext
      · rw [TagToken.readArguments_nil]
        simp
      · rw [List.mem_singleton.1 hpiece]
        exact hleading hfirst
    · obtain ⟨layout, hspell, hsources, hparted⟩ := ih
      refine ⟨⟨(Blanks.leading text, String.ofList (c :: others)) :: layout.pieces,
        layout.trailing, hparted ⟨found, more, hafter, hfound⟩⟩, ?_, ?_,
        fun hfirst piece hpiece ↦ ?_⟩
      · refine Eq.trans ?_ htext
        simpa [spell] using hspell
      · rw [List.map_cons, hsources, String.toList_ofList]
      · rcases List.mem_cons.1 hpiece with rfl | hmore
        · exact hleading hfirst
        · exact hparted ⟨found, more, hafter, hfound⟩ piece hmore

end Layout

namespace TagToken

/-- A content is laid out from its arguments, each of which begins with a character that is not
blank and is its own only argument. Laid out anew, with blanks between each two, the arguments are
found again. -/
theorem arguments_resplit (token : TagToken) :
    (∃ layout : Layout, layout.content = token.content ∧ layout.sources = token.arguments) ∧
    (∀ argument ∈ token.arguments,
      (∃ c rest, argument.toList = c :: rest ∧ isBlank c = false) ∧
      ∀ name, arguments ⟨name, argument⟩ = [argument]) ∧
    ∀ layout : Layout, layout.sources = token.arguments → layout.trailing.text = [] →
      ∀ name, arguments ⟨name, layout.content⟩ = token.arguments := by
  obtain ⟨finish, hsplits⟩ := splits_readArguments token.content.toList
  refine ⟨?_, fun argument hargument ↦ ?_, fun layout hsources htrailing name ↦ ?_⟩
  · obtain ⟨layout, hspell, hsources, -⟩ := Layout.exists_spell_eq token.content.toList
    refine ⟨layout, ?_, ?_⟩
    · rw [Layout.content, hspell, String.ofList_toList]
    · rw [arguments, ← hsources]
      simp [Layout.sources]
  · obtain ⟨text, htext, rfl⟩ := List.mem_map.1 hargument
    obtain ⟨hne, behind, hcrosses⟩ := hsplits.exists_crosses htext
    refine ⟨?_, fun name ↦ ?_⟩
    · obtain ⟨c, rest, rfl⟩ := List.exists_cons_of_ne_nil hne
      exact ⟨c, rest, String.toList_ofList, by simpa using hcrosses.1⟩
    · have hlast := readArguments_last (.leading []) hne hcrosses
      rw [arguments, String.toList_ofList]
      exact congrArg _ hlast
  · have hpieces : (layout.pieces.map fun piece ↦ piece.2.toList) =
        readArguments token.content.toList := by
      have htexts := congrArg (List.map String.toList) hsources
      simpa [Layout.sources, arguments, Function.comp_def] using htexts
    have hagain := Layout.readArguments_spell layout.parted (hpieces ▸ hsplits) (Or.inr htrailing)
    rw [arguments, Layout.content, String.toList_ofList, hagain, hpieces]
    rfl

/-- Quotes in the middle of an argument, and a last argument that leaves them open and ends in a
backslash. -/
theorem arguments_resplit_open :
    arguments ⟨"with", " x|f:'a b'  \"y z\\"⟩ = ["x|f:'a b'", "\"y z\\"] ∧
    arguments ⟨"with", "\"y z\\"⟩ = ["\"y z\\"] ∧
    arguments ⟨"with", "x|f:'a b'\n\t\"y z\\"⟩ = ["x|f:'a b'", "\"y z\\"] := by
  have hsplit : arguments ⟨"with", " x|f:'a b'  \"y z\\"⟩ = ["x|f:'a b'", "\"y z\\"] := by
    decide +kernel
  obtain ⟨-, halone, hlaid⟩ := arguments_resplit ⟨"with", " x|f:'a b'  \"y z\\"⟩
  rw [hsplit] at halone hlaid
  refine ⟨hsplit, (halone _ (by decide)).2 "with", ?_⟩
  have hagain := hlaid ⟨[(.leading [], "x|f:'a b'"), (.leading ['\n', '\t'], "\"y z\\")],
    .leading [], by decide⟩ rfl rfl "with"
  have hcontent : String.ofList (Layout.spell
      [(.leading [], "x|f:'a b'"), (.leading ['\n', '\t'], "\"y z\\")] (.leading [])) =
        "x|f:'a b'\n\t\"y z\\" := by
    decide +kernel
  rwa [Layout.content, hcontent] at hagain

end TagToken

end Stencil
