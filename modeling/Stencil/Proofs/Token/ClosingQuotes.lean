import Mathlib.Algebra.Group.Nat.Even
import Stencil.Proofs.Text.CharNames
import Stencil.Proofs.Token.Splitting

/-!
Where quotes close. A quote of the kind in use closes exactly if the backslashes right before it are
even in number, and the first such quote ends the quoted text (`Literal.ClosesBehind`). Texts that
can stand before it are closed under juxtaposition (`Literal.Inside.append`), since a run of
backslashes that is even in number leaves no mark on what follows it. Both readers of quoted texts
follow the rule: the reader of operands takes the text up to that quote
(`Literal.read?_eq_some_iff`), and the reader of arguments is outside quotes again behind it and
not before (`Literal.closesBehind_iff_behind`).

The value of a quoted text is what stands between the quotes with three pairs, of a backslash and a
quote or another backslash, replaced by their second characters (`Literal.escapes`).
-/

set_option autoImplicit false
set_option relaxedAutoImplicit false

namespace Stencil

open Text

namespace Literal

/-- The pairs that stand for their second characters. -/
def escapes : CharNames where
  mark := '\\'
  entries := [(['\\', '\''], '\''), (['\\', '"'], '"'), (['\\', '\\'], '\\')]
  head?_eq := by decide
  eq_of_prefix := by decide

/-- The number of backslashes that the text ends in. -/
def finalBackslashes (text : List Char) : Nat :=
  (text.reverse.takeWhile (· == '\\')).length

/-- No quote in the text has an even number of backslashes right before it. -/
def Unclosed (quote : Char) (text : List Char) : Prop :=
  ∀ front rest, text = front ++ quote :: rest → ¬Even (finalBackslashes front)

/-- A text behind an opening quote behind which a quote closes for the first time. -/
structure Inside (quote : Char) (text : List Char) : Prop where
  unclosed : Unclosed quote text
  even : Even (finalBackslashes text)

/-- The text behind an opening quote is closed behind its front. -/
structure ClosesBehind (quote : Char) (text inside rest : List Char) : Prop where
  text_eq : text = inside ++ quote :: rest
  inside : Inside quote inside

/-! ### Runs of backslashes -/

theorem finalBackslashes_append_singleton (text : List Char) (c : Char) :
    finalBackslashes (text ++ [c]) = if c = '\\' then finalBackslashes text + 1 else 0 := by
  rw [finalBackslashes, List.reverse_append, List.reverse_singleton, List.singleton_append,
    List.takeWhile_cons]
  by_cases hc : c = '\\'
  · simp [hc, finalBackslashes]
  · simp [hc]

/-- Behind a text that ends in an even number of backslashes they are counted as at the start. -/
theorem even_finalBackslashes_append {front : List Char} (hfront : Even (finalBackslashes front))
    (text : List Char) :
    Even (finalBackslashes (front ++ text)) ↔ Even (finalBackslashes text) := by
  induction text using List.reverseRecOn with
  | nil => simpa [finalBackslashes] using hfront
  | append_singleton text c ih =>
    rw [← List.append_assoc, finalBackslashes_append_singleton, finalBackslashes_append_singleton]
    split
    · rw [Nat.even_add_one, Nat.even_add_one, ih]
    · rfl

variable {quote : Char}

theorem unclosed_nil : Unclosed quote [] := by
  intro front rest hsplit
  simp at hsplit

theorem Unclosed.of_append {front rest : List Char} (hunclosed : Unclosed quote (front ++ rest)) :
    Unclosed quote front := by
  rintro before after rfl
  exact hunclosed before (after ++ rest) (by rw [List.append_assoc, List.cons_append])

/-- A character more does not close the text, unless it is the quote behind an even number of
backslashes. -/
theorem Unclosed.append_singleton {text : List Char} {c : Char} (htext : Unclosed quote text)
    (hc : c = quote → ¬Even (finalBackslashes text)) : Unclosed quote (text ++ [c]) := by
  intro front rest hsplit
  rcases List.eq_nil_or_concat rest with rfl | ⟨others, last, rfl⟩
  · obtain ⟨rfl, hlast⟩ := List.append_inj' hsplit rfl
    exact hc (List.cons.inj hlast).1
  · rw [List.concat_eq_append, ← List.cons_append, ← List.append_assoc] at hsplit
    exact htext front others (List.append_inj' hsplit rfl).1

/-- Behind characters that belong to the text, closing is told by the rest alone. -/
theorem Inside.unclosed_append {front text : List Char} (hfront : Inside quote front)
    (htext : Unclosed quote text) : Unclosed quote (front ++ text) := by
  intro before after hsplit
  rcases List.append_eq_append_iff.1 hsplit with ⟨more, rfl, hmore⟩ | ⟨others, rfl, hothers⟩
  · rw [even_finalBackslashes_append hfront.even]
    exact htext more after hmore
  · cases others with
    | nil => exact (htext [] after hothers.symm ⟨0, rfl⟩).elim
    | cons c others =>
      obtain rfl : quote = c := (List.cons.inj hothers).1
      exact hfront.unclosed before others rfl

theorem Inside.append {front text : List Char} (hfront : Inside quote front)
    (htext : Inside quote text) : Inside quote (front ++ text) :=
  ⟨hfront.unclosed_append htext.unclosed,
    (even_finalBackslashes_append hfront.even text).2 htext.even⟩

theorem inside_nil : Inside quote [] :=
  ⟨unclosed_nil, ⟨0, rfl⟩⟩

theorem inside_plain {c : Char} (hquote : c ≠ quote) (hbackslash : c ≠ '\\') :
    Inside quote [c] := by
  constructor
  · intro front rest hsplit
    have hmem : quote ∈ [c] := hsplit ▸ List.mem_append_right front List.mem_cons_self
    exact (hquote (List.mem_singleton.1 hmem).symm).elim
  · rw [← List.nil_append [c], finalBackslashes_append_singleton, if_neg hbackslash]
    exact ⟨0, rfl⟩

theorem inside_pair (hquote : quote ≠ '\\') (c : Char) : Inside quote ['\\', c] := by
  constructor
  · intro front rest hsplit
    cases front with
    | nil => exact (hquote (List.cons.inj hsplit).1.symm).elim
    | cons first front =>
      obtain ⟨rfl, htail⟩ := List.cons.inj hsplit
      cases front with
      | nil => decide
      | cons second front => simp at htail
  · rw [← List.singleton_append, finalBackslashes_append_singleton]
    split <;> decide

/-! ### The reader of quoted texts -/

theorem mem_entries_escapes {c : Char} (hc : c = '\'' ∨ c = '"' ∨ c = '\\') :
    (['\\', c], c) ∈ escapes.entries := by
  rcases hc with rfl | rfl | rfl <;> decide

/-- A backslash and what is behind it stand for what they are read as. -/
theorem replace_escapes_pair (c : Char) (rest : List Char) :
    escapes.replace ('\\' :: c :: rest) = unescape c ++ escapes.replace rest := by
  by_cases hc : c = '\'' ∨ c = '"' ∨ c = '\\'
  · have hunescape : unescape c = [c] := by
      rcases hc with rfl | rfl | rfl <;> rfl
    rw [hunescape]
    exact CharNames.replace_name_append (mem_entries_escapes hc) rest
  · have hunescape : unescape c = ['\\', c] := by
      rw [unescape, isQuote, if_neg]
      simpa [or_assoc] using hc
    have hnone : ∀ entry ∈ escapes.entries, ¬entry.1 <+: '\\' :: c :: rest := by
      intro entry hentry hbegins
      have hnames : ∀ entry ∈ escapes.entries, entry.1 = ['\\', entry.2] ∧
          (entry.2 = '\'' ∨ entry.2 = '"' ∨ entry.2 = '\\') := by decide
      obtain ⟨hname, hkind⟩ := hnames entry hentry
      rw [hname, List.cons_prefix_cons, List.cons_prefix_cons] at hbegins
      exact hc (hbegins.2.1 ▸ hkind)
    rw [CharNames.replace_cons_of_not_prefix hnone,
      CharNames.replace_cons_of_ne_mark (fun hmark ↦ hc (Or.inr (Or.inr hmark))), hunescape]
    rfl

/-- What is read behind an opening quote ends before the first quote that closes. -/
theorem exists_closesBehind_of_read? (hquote : quote ≠ '\\') {text value rest : List Char}
    (hread : read? quote text = some (value, rest)) :
    ∃ inside, ClosesBehind quote text inside rest ∧ value = escapes.replace inside := by
  fun_induction read? quote text generalizing value rest with
  | case1 c tail ih =>
    obtain ⟨reading, htail, heq⟩ := Option.map_eq_some_iff.1 hread
    cases heq
    obtain ⟨inside, ⟨rfl, hinside⟩, hvalue⟩ := ih htail
    refine ⟨'\\' :: c :: inside, ⟨rfl, (inside_pair hquote c).append hinside⟩, ?_⟩
    rw [replace_escapes_pair, hvalue]
  | case2 tail =>
    cases hread
    exact ⟨[], ⟨rfl, inside_nil⟩, CharNames.replace_nil.symm⟩
  | case3 c tail hpair hne ih =>
    obtain ⟨reading, htail, heq⟩ := Option.map_eq_some_iff.1 hread
    cases heq
    obtain ⟨inside, ⟨rfl, hinside⟩, hvalue⟩ := ih htail
    -- a backslash would take the next character with it, and there is one
    have hbackslash : c ≠ '\\' := by
      rintro rfl
      obtain ⟨second, others, hcons⟩ : ∃ second others,
          inside ++ quote :: reading.2 = second :: others := by
        cases inside <;> exact ⟨_, _, rfl⟩
      exact hpair second others rfl hcons
    refine ⟨c :: inside, ⟨rfl, (inside_plain hne hbackslash).append hinside⟩, ?_⟩
    rw [CharNames.replace_cons_of_ne_mark hbackslash, hvalue]
  | case4 => cases hread

/-- Where reading finds no end, no quote closes the text. -/
theorem unclosed_of_read?_eq_none (hquote : quote ≠ '\\') {text : List Char}
    (hread : read? quote text = none) : Unclosed quote text := by
  fun_induction read? quote text with
  | case1 c tail ih =>
    exact (inside_pair hquote c).unclosed_append (ih (Option.map_eq_none_iff.1 hread))
  | case2 => cases hread
  | case3 c tail hpair hne ih =>
    by_cases hbackslash : c = '\\'
    · cases tail with
      | nil =>
        have hpaired : Unclosed quote ([c] ++ [c]) := hbackslash ▸ (inside_pair hquote c).unclosed
        exact hpaired.of_append
      | cons second others => exact (hpair second others hbackslash rfl).elim
    · exact (inside_plain hne hbackslash).unclosed_append (ih (Option.map_eq_none_iff.1 hread))
  | case4 => exact unclosed_nil

theorem ClosesBehind.not_unclosed {text inside rest : List Char}
    (hcloses : ClosesBehind quote text inside rest) : ¬Unclosed quote text :=
  fun hunclosed ↦ hunclosed inside rest hcloses.text_eq hcloses.inside.even

/-- A text is closed in one place only. -/
theorem ClosesBehind.unique {text inside other rest otherRest : List Char}
    (hcloses : ClosesBehind quote text inside rest)
    (hother : ClosesBehind quote text other otherRest) : inside = other ∧ rest = otherRest := by
  have hsplit := hcloses.text_eq.symm.trans hother.text_eq
  rcases List.append_eq_append_iff.1 hsplit with ⟨more, rfl, hmore⟩ | ⟨more, rfl, hmore⟩
  · cases more with
    | nil => exact ⟨(List.append_nil inside).symm, (List.cons.inj hmore).2⟩
    | cons c more =>
      obtain rfl : quote = c := (List.cons.inj hmore).1
      exact (hother.inside.unclosed inside more rfl hcloses.inside.even).elim
  · cases more with
    | nil => exact ⟨List.append_nil other, (List.cons.inj hmore).2.symm⟩
    | cons c more =>
      obtain rfl : quote = c := (List.cons.inj hmore).1
      exact (hcloses.inside.unclosed other more rfl hother.inside.even).elim

/-- The reader gives what stands before the first quote that closes, and what follows it. -/
theorem read?_eq_some_iff (hquote : quote ≠ '\\') {text value rest : List Char} :
    read? quote text = some (value, rest) ↔
      ∃ inside, ClosesBehind quote text inside rest ∧ value = escapes.replace inside := by
  constructor
  · exact exists_closesBehind_of_read? hquote
  · rintro ⟨inside, hcloses, rfl⟩
    cases hread : read? quote text with
    | none => exact (hcloses.not_unclosed (unclosed_of_read?_eq_none hquote hread)).elim
    | some reading =>
      obtain ⟨other, hother, hvalue⟩ := exists_closesBehind_of_read? hquote hread
      obtain ⟨rfl, rfl⟩ := hcloses.unique hother
      rw [← hvalue]

/-- Reading fails exactly where no quote closes the text. -/
theorem read?_eq_none_iff (hquote : quote ≠ '\\') {text : List Char} :
    read? quote text = none ↔ Unclosed quote text := by
  refine ⟨unclosed_of_read?_eq_none hquote, fun hunclosed ↦ ?_⟩
  cases hread : read? quote text with
  | none => rfl
  | some reading =>
    obtain ⟨inside, hcloses, -⟩ := exists_closesBehind_of_read? hquote hread
    exact (hcloses.not_unclosed hunclosed).elim

/-! ### Written texts -/

/-- A character is escaped as its name, or stays as it is if it is no backslash. -/
theorem escape_spells (hquote : isQuote quote = true) (c : Char) :
    escapes.Spells c (escape quote c) := by
  unfold escape
  split
  · rename_i hescaped
    have hkind : c = '\'' ∨ c = '"' ∨ c = '\\' := by
      rcases hescaped with rfl | rfl
      · exact ((isQuote_iff c).1 hquote).imp_right Or.inl
      · exact Or.inr (Or.inr rfl)
    exact Or.inl (mem_entries_escapes hkind)
  · rename_i hplain
    exact Or.inr ⟨rfl, (not_or.1 hplain).2⟩

/-- An escaped text does not close where it is written. -/
theorem inside_flatMap_escape (hquote : quote ≠ '\\') (value : List Char) :
    Inside quote (value.flatMap (escape quote)) := by
  induction value with
  | nil => exact inside_nil
  | cons c value ih =>
    rw [List.flatMap_cons]
    refine Inside.append ?_ ih
    unfold escape
    split
    · exact inside_pair hquote c
    · rename_i hplain
      exact inside_plain (not_or.1 hplain).1 (not_or.1 hplain).2

end Literal

/-! ### The reader of arguments -/

namespace TagToken

open Literal

/-- Where the reader stands behind a text. -/
def Quoting.behind (start : Quoting) (text : List Char) : Quoting :=
  text.foldl Quoting.after start

namespace Quoting

variable {quote : Char}

theorem behind_append_singleton (start : Quoting) (text : List Char) (c : Char) :
    start.behind (text ++ [c]) = (start.behind text).after c := by
  rw [behind, List.foldl_append]
  rfl

theorem behind_opening (hquote : isQuote quote = true) (text : List Char) :
    outside.behind (quote :: text) = (inside quote).behind text := by
  rw [behind, List.foldl_cons, after, hquote]
  rfl

/-- Inside quotes the reader knows the parity of the backslashes that it has just seen. The
induction is on the text from its end. -/
theorem behind_inside (hquote : quote ≠ '\\') {text : List Char}
    (hunclosed : Unclosed quote text) : (inside quote).behind text =
      if Even (finalBackslashes text) then inside quote else escaped quote := by
  induction text using List.reverseRecOn with
  | nil => rfl
  | append_singleton text c ih =>
    have hstate := ih hunclosed.of_append
    rw [behind_append_singleton, hstate, finalBackslashes_append_singleton]
    by_cases heven : Even (finalBackslashes text)
    · have hc : c ≠ quote := by
        rintro rfl
        exact hunclosed text [] rfl heven
      by_cases hbackslash : c = '\\'
      · simp [heven, hbackslash, after, Nat.even_add_one]
      · simp [heven, hbackslash, hc, after]
    · by_cases hbackslash : c = '\\'
      · simp [heven, hbackslash, after, Nat.even_add_one]
      · simp [heven, hbackslash, after]

/-- A text is not closed exactly if no part at its front leads outside of the quotes. -/
theorem unclosed_iff_behind (hquote : quote ≠ '\\') {text : List Char} :
    Unclosed quote text ↔ ∀ front, front <+: text → (inside quote).behind front ≠ outside := by
  constructor
  · rintro hunclosed front ⟨rest, rfl⟩
    rw [behind_inside hquote hunclosed.of_append]
    split <;> simp
  · intro hinside
    induction text using List.reverseRecOn with
    | nil => exact unclosed_nil
    | append_singleton text c ih =>
      have htext := ih fun front hfront ↦ hinside front (hfront.trans (List.prefix_append text [c]))
      refine htext.append_singleton ?_
      rintro rfl heven
      refine hinside (text ++ [c]) (List.prefix_refl _) ?_
      rw [behind_append_singleton, behind_inside hquote htext, if_pos heven, after, if_neg hquote,
        if_pos rfl]

/-- The reader of arguments leaves quotes behind the first quote that closes, and not before. -/
theorem closesBehind_iff_behind (hquote : quote ≠ '\\') {text front rest : List Char} :
    ClosesBehind quote text front rest ↔ text = front ++ quote :: rest ∧
      (inside quote).behind (front ++ [quote]) = outside ∧
      ∀ shorter, shorter <+: front → (inside quote).behind shorter ≠ outside := by
  have hclosing (hunclosed : Unclosed quote front) :
      (inside quote).behind (front ++ [quote]) = outside ↔ Even (finalBackslashes front) := by
    rw [behind_append_singleton, behind_inside hquote hunclosed]
    split <;> rename_i heven
    · simp [after, hquote, heven]
    · simp [after, heven]
  constructor
  · rintro ⟨htext, hunclosed, heven⟩
    exact ⟨htext, (hclosing hunclosed).2 heven, (unclosed_iff_behind hquote).1 hunclosed⟩
  · rintro ⟨htext, hleaves, hinside⟩
    have hunclosed := (unclosed_iff_behind hquote).2 hinside
    exact ⟨htext, hunclosed, (hclosing hunclosed).1 hleaves⟩

/-- A text of which no part at the front leads outside of quotes is crossed in one go. -/
theorem crosses_behind {start : Quoting} {text : List Char}
    (hinside : ∀ front, front <+: text → start.behind front ≠ outside) :
    Crosses start text (start.behind text) := by
  induction text generalizing start with
  | nil => rfl
  | cons c text ih =>
    refine ⟨fun habsurd ↦ hinside [] List.nil_prefix habsurd.1, ih fun front hfront ↦ ?_⟩
    exact hinside (c :: front) ((List.prefix_cons_inj c).2 hfront)

end Quoting

variable {quote : Char} {text : List Char}

/-- Quotes that never close reach to the end. -/
theorem splitArgument_of_unclosed (hquote : isQuote quote = true)
    (hunclosed : Unclosed quote text) :
    splitArgument .outside (quote :: text) = (quote :: text, []) := by
  have hbackslash := Derivation.ne_backslash_of_isQuote hquote
  have htext := Quoting.crosses_behind ((Quoting.unclosed_iff_behind hbackslash).1 hunclosed)
  have hsplit := ((Derivation.crosses_opening hquote).append htext).splitArgument_append []
  simpa [splitArgument] using hsplit

/-- Behind quotes that close, the argument goes on outside of them. -/
theorem splitArgument_of_closesBehind (hquote : isQuote quote = true) {inside rest : List Char}
    (hcloses : ClosesBehind quote text inside rest) :
    splitArgument .outside (quote :: text) =
      (quote :: inside ++ quote :: (splitArgument .outside rest).1,
        (splitArgument .outside rest).2) := by
  have hbackslash := Derivation.ne_backslash_of_isQuote hquote
  have hinside : Crosses (.inside quote) inside (.inside quote) := by
    have hcrosses := Quoting.crosses_behind
      ((Quoting.unclosed_iff_behind hbackslash).1 hcloses.inside.unclosed)
    rwa [Quoting.behind_inside hbackslash hcloses.inside.unclosed, if_pos hcloses.inside.even]
      at hcrosses
  have hquoted : Crosses .outside ([quote] ++ (inside ++ [quote])) .outside :=
    (Derivation.crosses_opening hquote).append
      (hinside.append (Derivation.crosses_closing hquote))
  have hsplit := hquoted.splitArgument_append rest
  rw [hcloses.text_eq]
  simpa using hsplit

end TagToken

/-! ### Operands -/

namespace Scan

open Literal TagToken

variable {quote : Char}

/-- Behind a quote, an operand is the text up to the closing quote. -/
theorem operand_quote (hquote : isQuote quote = true) (text : List Char) :
    operand (quote :: text) =
      match read? quote text with
      | some (value, rest) => .ok (.text (String.ofList value), rest)
      | none => .error (.located (quote :: text) .unterminatedText) := by
  have hnumber : (quote.isDigit || quote == '.') = false := by
    rcases (isQuote_iff quote).1 hquote with rfl | rfl <;> decide
  cases hread : read? quote text with
  | none => simp [operand, hnumber, hquote, hread]
  | some reading => simp [operand, hnumber, hquote, hread]

/-- An operand behind a quote is read exactly up to the quote that closes it, with its pairs
replaced. -/
theorem operand_quote_eq_ok_iff (hquote : isQuote quote = true) {text rest : List Char}
    {value : Operand} : operand (quote :: text) = .ok (value, rest) ↔
      ∃ inside, ClosesBehind quote text inside rest ∧
        value = .text (String.ofList (escapes.replace inside)) := by
  have hbackslash := Derivation.ne_backslash_of_isQuote hquote
  rw [operand_quote hquote]
  constructor
  · intro hoperand
    split at hoperand
    · rename_i hread
      cases hoperand
      obtain ⟨inside, hcloses, rfl⟩ := (read?_eq_some_iff hbackslash).1 hread
      exact ⟨inside, hcloses, rfl⟩
    · cases hoperand
  · rintro ⟨inside, hcloses, rfl⟩
    rw [(read?_eq_some_iff hbackslash).2 ⟨inside, hcloses, rfl⟩]

/-- Behind a quote, reading fails exactly where no quote closes the text, and says so at the opening
one. -/
theorem operand_quote_eq_error_iff (hquote : isQuote quote = true) {text : List Char}
    {stop : Stop} :
    operand (quote :: text) = .error stop ↔
      Unclosed quote text ∧ stop = .located (quote :: text) .unterminatedText := by
  rw [operand_quote hquote, ← read?_eq_none_iff (Derivation.ne_backslash_of_isQuote hquote)]
  split
  · rename_i hread
    simp [hread]
  · rename_i hread
    simp [hread, eq_comm]

/-- A text that is spelled in quotes is read back, whatever is behind it. -/
theorem operand_spell (hquote : isQuote quote = true) (value rest : List Char) :
    operand (spell quote value ++ rest) = .ok (.text (String.ofList value), rest) := by
  have hinside := inside_flatMap_escape (Derivation.ne_backslash_of_isQuote hquote) value
  have hvalue : escapes.replace (value.flatMap (escape quote)) = value :=
    CharNames.replace_flatMap fun c _ ↦ escape_spells hquote c
  have htext : spell quote value ++ rest =
      quote :: (value.flatMap (escape quote) ++ quote :: rest) := by
    simp [spell]
  rw [htext]
  exact (operand_quote_eq_ok_iff hquote).2 ⟨_, ⟨rfl, hinside⟩, by rw [hvalue]⟩

/-- A text that is spelled in quotes reads as that text. -/
theorem scan_spell (hquote : isQuote quote = true) (options : Options) (value : List Char) :
    Expression.scan options (String.ofList (spell quote value)) =
      .ok ⟨.text (String.ofList value), []⟩ := by
  have hoperand := operand_spell hquote value []
  obtain ⟨tail, htail⟩ : ∃ tail, spell quote value = quote :: tail := ⟨_, rfl⟩
  have hskip : skipBlanks (quote :: tail) = quote :: tail := by
    rcases (isQuote_iff quote).1 hquote with rfl | rfl <;>
      exact List.dropWhile_cons_of_neg (by decide)
  have hne : quote ≠ ',' ∧ quote ≠ '|' := by
    rcases (isQuote_iff quote).1 hquote with rfl | rfl <;> decide
  rw [List.append_nil, htail] at hoperand
  have hhead (multiple : Bool) : head multiple (quote :: tail) =
      .ok ([.operand (.text (String.ofList value))], []) := by
    rw [head, hskip]
    simp only [hne, if_false, hoperand]
    rw [filters]
    rfl
  rw [Expression.scan_eq_ok_iff, String.toList_ofList, htail, Scan.expression, whole, hhead]
  rfl

/-- A text behind an opening quote is read up to the first quote of its kind that stands behind an
even number of backslashes, and this is where the reader of arguments leaves quotes; where there is
no such quote, the fault is located at the opening one, and quotes reach to the end of an argument.
A text that is written between quotes, with backslashes before these quotes and before
backslashes, is read back. -/
theorem operand_quoted (hquote : isQuote quote = true) (text : List Char) :
    ((∃ reading, operand (quote :: text) = .ok reading) ↔
      ∃ front rest, text = front ++ quote :: rest ∧ Even (finalBackslashes front)) ∧
    (∀ value rest, operand (quote :: text) = .ok (value, rest) ↔
      ∃ inside, ClosesBehind quote text inside rest ∧
        value = .text (String.ofList (escapes.replace inside))) ∧
    (∀ stop, operand (quote :: text) = .error stop ↔
      Unclosed quote text ∧ stop = .located (quote :: text) .unterminatedText) ∧
    (∀ inside rest, ClosesBehind quote text inside rest ↔
      text = inside ++ quote :: rest ∧
        Quoting.outside.behind (quote :: (inside ++ [quote])) = .outside ∧
        ∀ front, front <+: inside → Quoting.outside.behind (quote :: front) ≠ .outside) ∧
    (∀ inside rest, ClosesBehind quote text inside rest →
      splitArgument .outside (quote :: text) =
        (quote :: inside ++ quote :: (splitArgument .outside rest).1,
          (splitArgument .outside rest).2)) ∧
    (Unclosed quote text → splitArgument .outside (quote :: text) = (quote :: text, [])) ∧
    ∀ (value : String) (rest : List Char) (options : Options),
      operand (spell quote value.toList ++ rest) = .ok (.text value, rest) ∧
      Expression.scan options (String.ofList (spell quote value.toList)) =
        .ok ⟨.text value, []⟩ := by
  refine ⟨?_, fun value rest ↦ operand_quote_eq_ok_iff hquote,
    fun stop ↦ operand_quote_eq_error_iff hquote, fun inside rest ↦ ?_,
    fun inside rest ↦ splitArgument_of_closesBehind hquote, splitArgument_of_unclosed hquote,
    fun value rest options ↦ ⟨?_, ?_⟩⟩
  · constructor
    · rintro ⟨⟨value, rest⟩, hoperand⟩
      obtain ⟨inside, hcloses, -⟩ := (operand_quote_eq_ok_iff hquote).1 hoperand
      exact ⟨inside, rest, hcloses.text_eq, hcloses.inside.even⟩
    · rintro ⟨front, rest, htext, heven⟩
      cases hoperand : operand (quote :: text) with
      | error stop =>
        have hunclosed := ((operand_quote_eq_error_iff hquote).1 hoperand).1
        exact (hunclosed front rest htext heven).elim
      | ok reading => exact ⟨reading, rfl⟩
  · simp only [Quoting.behind_opening hquote]
    exact Quoting.closesBehind_iff_behind (Derivation.ne_backslash_of_isQuote hquote)
  · rw [operand_spell hquote, String.ofList_toList]
  · rw [scan_spell hquote, String.ofList_toList]

/-- A quote behind one backslash, quotes of the other kind, a pair that is kept, and a quote behind
two backslashes. -/
theorem operand_quoted_pairs :
    isQuote '\'' = true ∧
    ∃ inside, ClosesBehind '\'' "it\\'s \"\\n\" \\\\'|upper".toList inside "|upper".toList ∧
      Operand.text "it's \"\\n\" \\" = .text (String.ofList (escapes.replace inside)) ∧
      splitArgument .outside "'it\\'s \"\\n\" \\\\'|upper".toList =
        ('\'' :: inside ++ "'|upper".toList, []) := by
  have hquote : isQuote '\'' = true := rfl
  have hread : operand "'it\\'s \"\\n\" \\\\'|upper".toList =
      .ok (.text "it's \"\\n\" \\", "|upper".toList) := by decide +kernel
  have hquoted := operand_quoted hquote "it\\'s \"\\n\" \\\\'|upper".toList
  obtain ⟨inside, hcloses, hvalue⟩ := (hquoted.2.1 _ _).1 hread
  exact ⟨hquote, inside, hcloses, hvalue, hquoted.2.2.2.2.1 inside _ hcloses⟩

end Scan

end Stencil
