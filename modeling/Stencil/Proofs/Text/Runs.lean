import Stencil.Text.Blank
import Stencil.Text.Word

/-!
Runs of characters. A text that begins with a run of one class and goes on with a character outside
it is split exactly there (`takeWhile_append`, `dropWhile_append`), and the classes that expressions
are told apart by do not overlap: digits are word characters, and no word character is a blank.
-/

set_option autoImplicit false
set_option relaxedAutoImplicit false

namespace Stencil.Text

/-- The text is empty or begins with a character outside the class. -/
def StartsOutside (inClass : Char → Bool) (text : List Char) : Prop :=
  ∀ c ∈ text.head?, inClass c = false

section Runs

variable {inClass : Char → Bool} {front rest : List Char}

theorem startsOutside_nil : StartsOutside inClass [] := by
  rintro c ⟨⟩

theorem startsOutside_cons {c : Char} : StartsOutside inClass (c :: rest) ↔ inClass c = false := by
  simp [StartsOutside]

theorem takeWhile_eq_nil (hrest : StartsOutside inClass rest) : rest.takeWhile inClass = [] := by
  cases rest with
  | nil => rfl
  | cons c tail => rw [List.takeWhile_cons_of_neg (by simp [startsOutside_cons.1 hrest])]

theorem dropWhile_eq_self (hrest : StartsOutside inClass rest) : rest.dropWhile inClass = rest := by
  cases rest with
  | nil => rfl
  | cons c tail => rw [List.dropWhile_cons_of_neg (by simp [startsOutside_cons.1 hrest])]

/-- A run reaches up to the first character outside of the class. -/
theorem takeWhile_append (hfront : ∀ c ∈ front, inClass c = true)
    (hrest : StartsOutside inClass rest) : (front ++ rest).takeWhile inClass = front := by
  rw [List.takeWhile_append_of_pos hfront, takeWhile_eq_nil hrest, List.append_nil]

/-- Behind a run is what starts outside of the class. -/
theorem dropWhile_append (hfront : ∀ c ∈ front, inClass c = true)
    (hrest : StartsOutside inClass rest) : (front ++ rest).dropWhile inClass = rest := by
  rw [List.dropWhile_append_of_pos hfront, dropWhile_eq_self hrest]

/-- A text is split into a run and the rest in one way only. -/
theorem append_inj_of_startsOutside {otherFront otherRest : List Char}
    (hfront : ∀ c ∈ front, inClass c = true) (hotherFront : ∀ c ∈ otherFront, inClass c = true)
    (hrest : StartsOutside inClass rest) (hotherRest : StartsOutside inClass otherRest)
    (h : front ++ rest = otherFront ++ otherRest) : front = otherFront ∧ rest = otherRest := by
  constructor
  · rw [← takeWhile_append hfront hrest, h, takeWhile_append hotherFront hotherRest]
  · rw [← dropWhile_append hfront hrest, h, dropWhile_append hotherFront hotherRest]

theorem eq_true_of_mem_takeWhile {text : List Char} {c : Char} (hc : c ∈ text.takeWhile inClass) :
    inClass c = true :=
  List.all_eq_true.1 List.all_takeWhile c hc

theorem startsOutside_dropWhile (inClass : Char → Bool) (text : List Char) :
    StartsOutside inClass (text.dropWhile inClass) := by
  intro c hc
  have hhead := List.head?_dropWhile_not inClass text
  rwa [Option.mem_def.1 hc] at hhead

theorem startsOutside_of_takeWhile_eq_nil {text : List Char} (hnil : text.takeWhile inClass = []) :
    StartsOutside inClass text := by
  have hsplit := List.takeWhile_append_dropWhile (p := inClass) (l := text)
  rw [hnil, List.nil_append] at hsplit
  rw [← hsplit]
  exact startsOutside_dropWhile inClass text

/-- Two texts that both start outside do so one behind the other, even if the first is empty. -/
theorem StartsOutside.append (hfront : StartsOutside inClass front)
    (hrest : StartsOutside inClass rest) : StartsOutside inClass (front ++ rest) := by
  cases front with
  | nil => exact hrest
  | cons c tail => exact startsOutside_cons.2 (startsOutside_cons.1 hfront)

/-- Where a text begins outside the class, the text before it is split as it is alone. -/
theorem run_append_of_startsOutside (text : List Char) (hrest : StartsOutside inClass rest) :
    (text ++ rest).takeWhile inClass = text.takeWhile inClass ∧
      (text ++ rest).dropWhile inClass = text.dropWhile inClass ++ rest := by
  have hsplit : text ++ rest = text.takeWhile inClass ++ (text.dropWhile inClass ++ rest) := by
    rw [← List.append_assoc, List.takeWhile_append_dropWhile]
  have hrun : ∀ c ∈ text.takeWhile inClass, inClass c = true := fun _ ↦ eq_true_of_mem_takeWhile
  have houtside := (startsOutside_dropWhile inClass text).append hrest
  rw [hsplit]
  exact ⟨takeWhile_append hrun houtside, dropWhile_append hrun houtside⟩

/-- Where a run ends before a character, it ends there whatever follows that character. -/
theorem takeWhile_append_cons {text tail : List Char} {c : Char}
    (htext : text.dropWhile inClass = c :: tail) (other : List Char) :
    (text.takeWhile inClass ++ c :: other).takeWhile inClass = text.takeWhile inClass ∧
      (text.takeWhile inClass ++ c :: other).dropWhile inClass = c :: other := by
  have hc : StartsOutside inClass (c :: other) := by
    have hstart := startsOutside_dropWhile inClass text
    rw [htext] at hstart
    exact startsOutside_cons.2 (startsOutside_cons.1 hstart)
  have hrun : ∀ found ∈ text.takeWhile inClass, inClass found = true :=
    fun _ ↦ eq_true_of_mem_takeWhile
  exact ⟨takeWhile_append hrun hc, dropWhile_append hrun hc⟩

end Runs

/-- The run of digits at the front ends in the same way whatever is behind the character that ends
it. -/
theorem leadingDigits_append_cons {text tail : List Char} {c : Char}
    (htext : afterDigits text = c :: tail) (other : List Char) :
    leadingDigits (leadingDigits text ++ c :: other) = leadingDigits text ∧
      afterDigits (leadingDigits text ++ c :: other) = c :: other :=
  takeWhile_append_cons htext other

theorem leadingWord_cons_eq_nil {c : Char} {tail : List Char} (hnil : leadingWord (c :: tail) = [])
    (other : List Char) : leadingWord (c :: other) = [] :=
  takeWhile_eq_nil (startsOutside_cons.2
    (startsOutside_cons.1 (startsOutside_of_takeWhile_eq_nil hnil)))

/-- The word at the front ends in the same way whatever is behind the character that ends it. -/
theorem leadingWord_append_cons {text tail : List Char} {c : Char}
    (htext : afterWord text = c :: tail) (other : List Char) :
    leadingWord (leadingWord text ++ c :: other) = leadingWord text ∧
      afterWord (leadingWord text ++ c :: other) = c :: other :=
  takeWhile_append_cons htext other

/-! ### Classes of characters -/

theorem isWord_of_isDigit {c : Char} (h : c.isDigit = true) : isWord c = true := by
  simp [isWord, Char.isAlphanum, h]

theorem isWord_point : isWord '.' = false := by decide

theorem toNat_of_isWord {c : Char} (h : isWord c = true) :
    48 ≤ c.toNat ∧ c.toNat ≤ 57 ∨ 65 ≤ c.toNat ∧ c.toNat ≤ 90 ∨ c.toNat = 95 ∨
      97 ≤ c.toNat ∧ c.toNat ≤ 122 := by
  delta isWord Char.isAlphanum Char.isAlpha Char.isUpper Char.isLower Char.isDigit at h
  simp only [Bool.or_eq_true, Bool.and_eq_true, decide_eq_true_eq, beq_iff_eq,
    UInt32.le_iff_toNat_le, ge_iff_le] at h
  change (((65 ≤ c.toNat ∧ c.toNat ≤ 90) ∨ (97 ≤ c.toNat ∧ c.toNat ≤ 122)) ∨
    (48 ≤ c.toNat ∧ c.toNat ≤ 57)) ∨ c = '_' at h
  rcases h with h | rfl
  · omega
  · decide

theorem isWord_eq_false_of_isBlank {c : Char} (h : isBlank c = true) : isWord c = false := by
  rw [isBlank, covers_eq_true_iff] at h
  obtain ⟨range, hrange, hlower, hupper⟩ := h
  have hgaps : ∀ range ∈ blankRanges, range.2 < 48 ∨ 122 < range.1 := by decide
  have hgap := hgaps range hrange
  refine Bool.eq_false_iff.2 fun hword ↦ ?_
  have hcode := toNat_of_isWord hword
  omega

end Stencil.Text
