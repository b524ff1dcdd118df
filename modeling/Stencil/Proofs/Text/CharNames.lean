import Mathlib.Data.List.Infix

/-!
Names for characters, as texts write them where a character cannot stand for itself. All names begin
with one mark, and no name is the beginning of another, so that one pass from left to right finds
every name that is there (`CharNames.replace`). A text whose characters are either written by their
names or kept, where the mark itself is never kept (`CharNames.Spells`), is found again from what
was written (`CharNames.replace_flatMap`).
-/

set_option autoImplicit false
set_option relaxedAutoImplicit false

namespace Stencil.Text

/-- Names, each with the character that it stands for. -/
structure CharNames where
  /-- The character that every name begins with. -/
  mark : Char
  entries : List (List Char × Char)
  head?_eq : ∀ entry ∈ entries, entry.1.head? = some mark
  eq_of_prefix : ∀ entry ∈ entries, ∀ other ∈ entries, entry.1 <+: other.1 → entry = other

namespace CharNames

/-- The text with every name replaced by its character, in one pass from left to right. -/
def replace (names : CharNames) : List Char → List Char
  | [] => []
  | c :: rest =>
    match names.entries.find? fun entry ↦ entry.1.isPrefixOf (c :: rest) with
    | some entry => entry.2 :: names.replace (rest.drop (entry.1.length - 1))
    | none => c :: names.replace rest
termination_by text => text.length
decreasing_by all_goals simp only [List.length_cons, List.length_drop]; omega

/-- The word is the name of the character, or it is the character, which is not the mark. -/
def Spells (names : CharNames) (c : Char) (word : List Char) : Prop :=
  (word, c) ∈ names.entries ∨ (word = [c] ∧ c ≠ names.mark)

variable {names : CharNames}

theorem exists_cons_of_mem_entries {entry : List Char × Char} (hentry : entry ∈ names.entries) :
    ∃ tail, entry.1 = names.mark :: tail := by
  have hhead := names.head?_eq entry hentry
  cases hname : entry.1 with
  | nil =>
    rw [hname] at hhead
    cases hhead
  | cons first tail =>
    rw [hname] at hhead
    exact ⟨tail, by rw [Option.some.inj hhead]⟩

theorem replace_nil : names.replace [] = [] := by
  rw [replace]

/-- A name at the front is replaced by its character. -/
theorem replace_name_append {entry : List Char × Char} (hentry : entry ∈ names.entries)
    (rest : List Char) : names.replace (entry.1 ++ rest) = entry.2 :: names.replace rest := by
  obtain ⟨tail, hname⟩ := exists_cons_of_mem_entries hentry
  have hself : entry.1 <+: names.mark :: (tail ++ rest) := ⟨rest, by rw [hname, List.cons_append]⟩
  have hfind : names.entries.find?
      (fun other ↦ other.1.isPrefixOf (names.mark :: (tail ++ rest))) = some entry := by
    cases hfound : names.entries.find? fun other ↦
        other.1.isPrefixOf (names.mark :: (tail ++ rest)) with
    | none =>
      exact absurd (List.isPrefixOf_iff_prefix.2 hself) (List.find?_eq_none.1 hfound entry hentry)
    | some other =>
      have hother := List.mem_of_find?_eq_some hfound
      have hmatches := List.find?_some hfound
      have hbegins : other.1 <+: names.mark :: (tail ++ rest) :=
        List.isPrefixOf_iff_prefix.1 hmatches
      rcases List.prefix_or_prefix_of_prefix hbegins hself with hle | hle
      · rw [names.eq_of_prefix other hother entry hentry hle]
      · rw [names.eq_of_prefix entry hentry other hother hle]
  rw [hname, List.cons_append, replace, hfind]
  simp [hname]

/-- Where no name begins, the character stays. -/
theorem replace_cons_of_not_prefix {c : Char} {rest : List Char}
    (hnone : ∀ entry ∈ names.entries, ¬entry.1 <+: c :: rest) :
    names.replace (c :: rest) = c :: names.replace rest := by
  have hfind : names.entries.find? (fun entry ↦ entry.1.isPrefixOf (c :: rest)) = none := by
    refine List.find?_eq_none.2 fun entry hentry hbegins ↦ ?_
    exact hnone entry hentry (List.isPrefixOf_iff_prefix.1 hbegins)
  rw [replace, hfind]

/-- A character that is not the mark stays. -/
theorem replace_cons_of_ne_mark {c : Char} (hc : c ≠ names.mark) (rest : List Char) :
    names.replace (c :: rest) = c :: names.replace rest := by
  refine replace_cons_of_not_prefix fun entry hentry hbegins ↦ hc ?_
  obtain ⟨tail, hname⟩ := exists_cons_of_mem_entries hentry
  rw [hname] at hbegins
  exact (List.cons_prefix_cons.1 hbegins).1.symm

/-- What a character was written as is replaced by it, whatever is behind. -/
theorem Spells.replace_append {c : Char} {word : List Char} (hspells : names.Spells c word)
    (rest : List Char) : names.replace (word ++ rest) = c :: names.replace rest := by
  rcases hspells with hname | ⟨rfl, hc⟩
  · exact replace_name_append hname rest
  · exact replace_cons_of_ne_mark hc rest

/-- Writing characters by their names loses nothing. -/
theorem replace_flatMap {text : List Char} {spell : Char → List Char}
    (hspell : ∀ c ∈ text, names.Spells c (spell c)) :
    names.replace (text.flatMap spell) = text := by
  induction text with
  | nil => exact replace_nil
  | cons c text ih =>
    rw [List.flatMap_cons, (hspell c List.mem_cons_self).replace_append,
      ih fun other hother ↦ hspell other (List.mem_cons_of_mem _ hother)]

end CharNames

end Stencil.Text
