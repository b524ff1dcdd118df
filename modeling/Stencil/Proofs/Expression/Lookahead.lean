import Stencil.Proofs.Expression.FaultPlace
import Stencil.Proofs.Expression.Modes

/-!
One character of lookahead. Reading goes from left to right and sees one character beyond what it
takes. A run that ends before a character ends there in the same way whatever follows that
character (`Scan.LooksOneAhead`), be it that the run succeeds or that it stops with a problem told
by the one character (`Problem.Eager`). Each reader looks one character ahead because the readers
that it calls do: `Scan.operand_looksOneAhead`, `Scan.arguments_looksOneAhead`,
`Scan.filter_looksOneAhead`, `Scan.filters_looksOneAhead` and `Scan.head_looksOneAhead`.

With the places of faults this says how soon a fault is found. The text before it is not to blame,
as it can be continued to an expression, and the text up to the character that is found there is
past help, as every continuation of it has the same fault (`Expression.scan_error_settled`).
-/

set_option autoImplicit false
set_option relaxedAutoImplicit false

namespace Stencil

open Stencil.Derivation Text

/-- A problem with the very character at its place. -/
def Problem.OfCharacter : Problem → Prop
  | .unexpectedCharacter _ => True
  | .unexpectedTerminator found => found = ','
  | .malformedNumber flaw => flaw = .secondPoint ∨ ∃ found, flaw = .unexpected found
  | _ => False

/-- A problem with something that is not there. -/
def Problem.OfAbsence : Problem → Prop
  | .missingFilterName | .emptySegment | .missingArgument _ => True
  | _ => False

/-- A problem that the character at its place is enough to tell. -/
def Problem.Eager (problem : Problem) : Prop :=
  problem.OfCharacter ∨ problem.OfAbsence

theorem Problem.OfCharacter.not_fits_nil {problem : Problem} (hcharacter : problem.OfCharacter)
    (front : List Char) : ¬problem.Fits front [] := by
  cases problem <;> simp [OfCharacter, Fits] at hcharacter ⊢

namespace Scan

/-! ### Runs that end at a place -/

variable {α β : Type}

/-- A run that ends at the place: with a value it leaves the text from there on, and with a problem
it stops there. -/
def endingAt (place : List Char) : Except Problem α → Except Stop (α × List Char)
  | .ok value => .ok (value, place)
  | .error problem => .error (.located place problem)

/-- An outcome that the character at its place is enough to tell. -/
def Prompt (outcome : Except Problem α) : Prop :=
  ∀ problem, outcome = .error problem → problem.Eager

/-- A run on the input that ends before a character ends there whatever follows the character. -/
def LooksOneAhead (reader : List Char → Except Stop (α × List Char)) (input : List Char) : Prop :=
  ∀ (outcome : Except Problem α) (c : Char) (tail : List Char), Prompt outcome →
    reader input = endingAt (c :: tail) outcome →
    ∃ front, input = front ++ c :: tail ∧
      ∀ other, reader (front ++ c :: other) = endingAt (c :: other) outcome

/-- One reader behind another. -/
def thenRead (first : List Char → Except Stop (β × List Char))
    (next : β → List Char → Except Stop (α × List Char)) (input : List Char) :
    Except Stop (α × List Char) :=
  match first input with
  | .error stop => .error stop
  | .ok (value, rest) => next value rest

theorem map_eq_thenRead (reader : List Char → Except Stop (α × List Char)) (change : α → β) :
    (fun text ↦ (reader text).map fun reading ↦ (change reading.1, reading.2)) =
      thenRead reader fun value rest ↦ .ok (change value, rest) := by
  funext text
  rw [thenRead]
  cases reader text <;> rfl

theorem endingAt_injective {place other : List Char} {outcome another : Except Problem α}
    (h : endingAt place outcome = endingAt other another) : place = other ∧ outcome = another := by
  cases outcome <;> cases another <;> cases h <;> exact ⟨rfl, rfl⟩

/-- What follows a character does not change how the text begins. -/
theorem exists_cons_of_append_cons {front tail rest : List Char} {c first : Char}
    (h : first :: rest = front ++ c :: tail) (other : List Char) :
    ∃ more, front ++ c :: other = first :: more := by
  cases front with
  | nil =>
    obtain ⟨rfl, -⟩ := List.cons.inj h
    exact ⟨other, rfl⟩
  | cons found front =>
    obtain ⟨rfl, -⟩ := List.cons.inj h
    exact ⟨front ++ c :: other, rfl⟩

namespace LooksOneAhead

variable {reader next : List Char → Except Stop (α × List Char)} {input : List Char}

/-- A run that ends before a character in this way. -/
theorem here (front : List Char) {first : Char} {rest : List Char} (outcome : Except Problem α)
    (hreader : ∀ more, reader (front ++ first :: more) = endingAt (first :: more) outcome) :
    LooksOneAhead reader (front ++ first :: rest) := by
  intro found c tail _ hread
  rw [hreader] at hread
  obtain ⟨hplace, rfl⟩ := endingAt_injective hread
  obtain ⟨rfl, rfl⟩ := List.cons.inj hplace
  exact ⟨front, rfl, hreader⟩

/-- A run that ends with the text. -/
theorem atEnd (outcome : Except Problem α) (hreader : reader input = endingAt [] outcome) :
    LooksOneAhead reader input := by
  intro found c tail _ hread
  rw [hreader] at hread
  cases (endingAt_injective hread).1

/-- A fault without a place. -/
theorem empty (hreader : reader input = .error .emptyExpression) : LooksOneAhead reader input := by
  intro outcome c tail _ hread
  rw [hreader] at hread
  cases outcome <;> cases hread

/-- A problem that takes more than one character to tell. -/
theorem late {place : List Char} {problem : Problem}
    (hreader : reader input = .error (.located place problem)) (hlate : ¬problem.Eager) :
    LooksOneAhead reader input := by
  intro outcome c tail hprompt hread
  rw [hreader] at hread
  cases outcome with
  | ok value => cases hread
  | error other =>
    cases hread
    exact absurd (hprompt problem rfl) hlate

/-- A value that is there before anything is read. -/
theorem pure (value : α) (input : List Char) :
    LooksOneAhead (fun text ↦ .ok (value, text)) input := by
  cases input with
  | nil => exact .atEnd (.ok value) rfl
  | cons c tail => exact .here [] (.ok value) fun more ↦ rfl

/-- A text that is read without regard to what follows, and then on behind it. -/
theorem behind (front : List Char) {rest : List Char}
    (hreader : ∀ more, reader (front ++ more) = next more) (hnext : LooksOneAhead next rest) :
    LooksOneAhead reader (front ++ rest) := by
  intro outcome c tail hprompt hread
  rw [hreader] at hread
  obtain ⟨middle, rfl, hother⟩ := hnext outcome c tail hprompt hread
  refine ⟨front ++ middle, by rw [List.append_assoc], fun other ↦ ?_⟩
  rw [List.append_assoc, hreader, hother]

/-- A text that is read up to a character, and then on from that character. -/
theorem upTo (front : List Char) {first : Char} {rest : List Char}
    (hreader : ∀ more, reader (front ++ first :: more) = next (first :: more))
    (hnext : LooksOneAhead next (first :: rest)) :
    LooksOneAhead reader (front ++ first :: rest) := by
  intro outcome c tail hprompt hread
  rw [hreader] at hread
  obtain ⟨middle, hmiddle, hother⟩ := hnext outcome c tail hprompt hread
  refine ⟨front ++ middle, by rw [List.append_assoc, hmiddle], fun other ↦ ?_⟩
  obtain ⟨more, hmore⟩ := exists_cons_of_append_cons hmiddle other
  rw [List.append_assoc, hmore, hreader, ← hmore, hother]

/-- The second of two readers begins with the character that the first one saw, or with nothing. -/
theorem thenRead {first : List Char → Except Stop (β × List Char)}
    {next : β → List Char → Except Stop (α × List Char)} (hfirst : LooksOneAhead first input)
    (hnext : ∀ value rest, first input = .ok (value, rest) → LooksOneAhead (next value) rest) :
    LooksOneAhead (Scan.thenRead first next) input := by
  intro outcome c tail hprompt hread
  unfold Scan.thenRead at hread ⊢
  cases hresult : first input with
  | error stop =>
    simp only [hresult] at hread
    cases outcome with
    | ok value => cases hread
    | error problem =>
      cases hread
      obtain ⟨front, hfront, hother⟩ := hfirst (.error problem) c tail
        (fun _ h ↦ hprompt _ (by cases h; rfl)) hresult
      refine ⟨front, hfront, fun other ↦ ?_⟩
      rw [hother]
      rfl
  | ok reading =>
    obtain ⟨value, rest⟩ := reading
    simp only [hresult] at hread
    obtain ⟨middle, hmiddle, hmore⟩ := hnext value rest hresult outcome c tail hprompt hread
    obtain ⟨found, left, rfl⟩ : ∃ found left, rest = found :: left := by
      cases rest with
      | nil => cases middle <;> cases hmiddle
      | cons found left => exact ⟨found, left, rfl⟩
    obtain ⟨front, rfl, hother⟩ := hfirst (.ok value) found left (by rintro problem ⟨⟩) hresult
    refine ⟨front ++ middle, by rw [List.append_assoc, hmiddle], fun other ↦ ?_⟩
    obtain ⟨more, heq⟩ := exists_cons_of_append_cons hmiddle other
    rw [List.append_assoc, heq, hother]
    show next value (found :: more) = endingAt (c :: other) outcome
    rw [← heq, hmore]

/-- A value that is changed. -/
theorem map (change : α → β) (hlooks : LooksOneAhead reader input) :
    LooksOneAhead
      (fun text ↦ (reader text).map fun reading ↦ (change reading.1, reading.2)) input := by
  rw [map_eq_thenRead]
  exact hlooks.thenRead fun value rest _ ↦ .pure (change value) rest

end LooksOneAhead

/-! ### Operands -/

/-- A number is read in the same way whatever is behind the character that ended it. -/
theorem exists_front_of_read {input tail : List Char} {c : Char} {value : Number}
    (h : Number.read input = .ok (value, c :: tail)) :
    ∃ front, input = front ++ c :: tail ∧
      ∀ other, Number.read (front ++ c :: other) = .ok (value, c :: other) := by
  have hinput := leadingDigits_append_afterDigits input
  unfold Number.read at h
  split at h
  · rename_i rest hpoint
    rcases ofDecimal_finite_or_infinite (leadingDigits input) (leadingDigits rest) with
      ⟨rank, hfinite⟩ | hinfinite
    · simp only [hfinite, Except.ok.injEq, Prod.mk.injEq] at h
      obtain ⟨rfl, hrest⟩ := h
      rw [hpoint, ← leadingDigits_append_afterDigits rest, hrest] at hinput
      refine ⟨leadingDigits input ++ '.' :: leadingDigits rest, ?_, fun other ↦ ?_⟩
      · rw [List.append_assoc]
        exact hinput.symm
      · have hwhole := leadingDigits_append_cons hpoint (leadingDigits rest ++ c :: other)
        have hfraction := leadingDigits_append_cons hrest other
        rw [List.append_assoc, List.cons_append]
        simp only [Number.read, hwhole, hfraction, hfinite]
    · simp [hinfinite] at h
  · rename_i hpoint
    split at h
    · rename_i hbounded
      simp only [Except.ok.injEq, Prod.mk.injEq] at h
      obtain ⟨rfl, hrest⟩ := h
      rw [hrest] at hinput
      refine ⟨leadingDigits input, hinput.symm, fun other ↦ ?_⟩
      have hwhole := leadingDigits_append_cons hrest other
      have hc : c ≠ '.' := by
        rintro rfl
        exact hpoint tail hrest
      simp only [Number.read, hwhole, if_pos hbounded]
      split
      · rename_i heq
        exact absurd (List.cons.inj heq).1 hc
      · rfl
    · cases h

theorem number_looksOneAhead (input : List Char) : LooksOneAhead Number.read input := by
  cases hread : Number.read input with
  | error stop =>
    obtain ⟨flaw, hflaw, rfl⟩ := Number.eq_located_of_read hread
    refine .late hread ?_
    rcases hflaw with rfl | rfl <;> simp [Problem.Eager, Problem.OfCharacter, Problem.OfAbsence]
  | ok reading =>
    obtain ⟨value, _ | ⟨c, tail⟩⟩ := reading
    · exact .atEnd (.ok value) hread
    · obtain ⟨front, rfl, hother⟩ := exists_front_of_read hread
      exact .here front (.ok value) hother

/-- A number is read, and then the character behind it is looked at. -/
theorem readWhole_eq_thenRead :
    Number.readWhole = thenRead Number.read fun value rest ↦
      match Number.flawBefore? rest with
      | some flaw => .error (.located rest (.malformedNumber flaw))
      | none => .ok (value, rest) := by
  funext text
  rw [Number.readWhole, thenRead]
  cases Number.read text <;> rfl

theorem readWhole_looksOneAhead (input : List Char) : LooksOneAhead Number.readWhole input := by
  rw [readWhole_eq_thenRead]
  refine .thenRead (number_looksOneAhead input) fun value rest _ ↦ ?_
  cases rest with
  | nil => exact .atEnd (.ok value) rfl
  | cons c tail =>
    cases hflaw : Number.flawBefore? (c :: tail) with
    | none =>
      refine .here [] (.ok value) fun more ↦ ?_
      have hsame : Number.flawBefore? (c :: more) = none := hflaw
      simp only [List.nil_append, hsame, endingAt]
    | some flaw =>
      refine .here [] (.error (.malformedNumber flaw)) fun more ↦ ?_
      have hsame : Number.flawBefore? (c :: more) = some flaw := hflaw
      simp only [List.nil_append, hsame, endingAt]

/-- The induction is on the text. Behind a point the names go on in the same way. -/
theorem readSegments_looksOneAhead (input : List Char) :
    LooksOneAhead Lookup.readSegments input := by
  fun_induction Lookup.readSegments input with
  | case1 input hnil =>
    cases input with
    | nil => exact .atEnd (.error .emptySegment) (by rw [Lookup.readSegments_eq]; rfl)
    | cons c tail =>
      refine .here [] (.error .emptySegment) fun more ↦ ?_
      rw [List.nil_append, Lookup.readSegments_eq, if_pos (leadingWord_cons_eq_nil hnil more)]
      rfl
  | case2 input hne tail htail _ ih =>
    rw [← leadingWord_append_afterWord input, htail, ← List.singleton_append, ← List.append_assoc]
    refine .behind _ (fun more ↦ ?_) (ih.map (String.ofList (leadingWord input) :: ·))
    obtain ⟨hleading, hafter⟩ := leadingWord_append_cons htail more
    rw [List.append_assoc, List.singleton_append, Lookup.readSegments_eq]
    simp only [hleading, if_neg hne, hafter]
  | case3 input hne hpoint =>
    cases hrest : afterWord input with
    | nil =>
      refine .atEnd (.ok [String.ofList (leadingWord input)]) ?_
      rw [Lookup.readSegments_eq, if_neg hne, hrest]
      rfl
    | cons c tail =>
      have hsplit := leadingWord_append_afterWord input
      rw [hrest] at hsplit
      rw [← hsplit]
      refine .here _ (.ok [String.ofList (leadingWord input)]) fun more ↦ ?_
      obtain ⟨hleading, hafter⟩ := leadingWord_append_cons hrest more
      rw [Lookup.readSegments_eq, hleading, hafter, if_neg hne]
      split
      · rename_i heq
        cases heq
        exact (hpoint tail hrest).elim
      · rfl

theorem read_looksOneAhead (input : List Char) : LooksOneAhead Lookup.read input := by
  cases input with
  | nil =>
    refine .atEnd (.error .emptySegment) ?_
    rw [Lookup.read, List.head?_nil]
    exact Lookup.readSegments_eq []
  | cons c tail =>
    by_cases hword : isWord c = true
    · refine .upTo [] (fun more ↦ ?_) (readSegments_looksOneAhead (c :: tail))
      rw [List.nil_append, Lookup.read, List.head?_cons]
      exact if_pos hword
    · refine .here [] (.error (.unexpectedCharacter c)) fun more ↦ ?_
      rw [List.nil_append, Lookup.read, List.head?_cons]
      exact if_neg hword

/-- A quoted text is read in the same way whatever is behind its closing quote. -/
theorem exists_front_of_read? {quote : Char} (hquote : Literal.isQuote quote = true)
    {input value rest : List Char} (h : Literal.read? quote input = some (value, rest)) :
    ∃ front, input = front ++ rest ∧
      ∀ other, Literal.read? quote (front ++ other) = some (value, other) := by
  obtain ⟨items, hplain, htext, rfl⟩ := Literal.exists_items_of_read? h
  refine ⟨items.flatMap QuotedItem.text ++ [quote], ?_, fun other ↦ ?_⟩
  · rw [← htext, List.append_assoc, List.singleton_append]
  · rw [List.append_assoc, List.singleton_append]
    exact Literal.read?_items ((Literal.isQuote_iff quote).1 hquote) hplain other

theorem operand_looksOneAhead (input : List Char) : LooksOneAhead operand input := by
  cases input with
  | nil => exact .atEnd (.error .emptySegment) rfl
  | cons c tail =>
    by_cases hnumber : (c.isDigit || c == '.') = true
    · refine .upTo [] (fun more ↦ ?_) ((readWhole_looksOneAhead (c :: tail)).map Operand.number)
      rw [List.nil_append, operand, if_pos hnumber]
    by_cases hquote : Literal.isQuote c = true
    · cases hread : Literal.read? c tail with
      | none =>
        have hstop : operand (c :: tail) = .error (.located (c :: tail) .unterminatedText) := by
          simp only [operand, if_neg hnumber, if_pos hquote, hread]
        exact .late hstop (by simp [Problem.Eager, Problem.OfCharacter, Problem.OfAbsence])
      | some reading =>
        obtain ⟨value, rest⟩ := reading
        obtain ⟨front, rfl, hother⟩ := exists_front_of_read? hquote hread
        rw [← List.cons_append]
        refine .behind (c :: front) (fun more ↦ ?_) (.pure (.text (String.ofList value)) rest)
        rw [List.cons_append, operand, if_neg hnumber, if_pos hquote, hother]
    · refine .upTo [] (fun more ↦ ?_) ((read_looksOneAhead (c :: tail)).map Operand.lookup)
      rw [List.nil_append, operand, if_neg hnumber, if_neg hquote]

/-! ### Arguments and filters -/

variable {multiple : Bool}

theorem skipBlanks_append_cons (blanks : Blanks) {c : Char} (hc : isBlank c = false)
    (rest : List Char) : skipBlanks (blanks.text ++ c :: rest) = c :: rest :=
  dropWhile_append blanks.isBlank_of_mem (startsOutside_cons.2 hc)

/-- The arguments of a filter once the first of them was read. -/
def argumentsBehind (multiple : Bool) (name : String) (value : Operand) :
    List Char → Except Stop (List Fragment × List Char)
  | [] => .ok ([.operand value], [])
  | c :: rest =>
    if c = ',' ∧ multiple = true then
      (arguments multiple name rest).map fun reading ↦ (.operand value :: reading.1, reading.2)
    else if c = ',' ∨ c = '|' ∨ isBlank c = true then .ok ([.operand value], c :: rest)
    else .error (.located (c :: rest) (.unexpectedCharacter c))

/-- Arguments that are not missing begin with an operand. -/
theorem arguments_blanks (name : String) (blanks : Blanks) {c : Char} (hblank : isBlank c = false)
    (hc : ¬(c = ',' ∨ c = '|')) (rest : List Char) :
    arguments multiple name (blanks.text ++ c :: rest) =
      thenRead operand (argumentsBehind multiple name) (c :: rest) := by
  have hhead : (c :: rest).head? ∉ [none, some ',', some '|'] := by simpa using hc
  rw [arguments_eq, skipBlanks_append_cons blanks hblank, if_neg hhead, thenRead]
  rcases operand (c :: rest) with stop | ⟨value, _ | ⟨found, tail⟩⟩ <;> rfl

/-- What follows an argument looks one character ahead, if the arguments behind a comma do. -/
theorem argumentsBehind_looksOneAhead (name : String) (value : Operand) {rest : List Char}
    (hmore : LooksOneAhead (arguments multiple name) rest.tail) :
    LooksOneAhead (argumentsBehind multiple name value) rest := by
  cases rest with
  | nil => exact .atEnd (.ok [.operand value]) rfl
  | cons c tail =>
    by_cases hcomma : c = ',' ∧ multiple = true
    · rw [← List.singleton_append]
      refine .behind [c] (fun more ↦ ?_) (hmore.map (.operand value :: ·))
      exact if_pos hcomma
    by_cases hend : c = ',' ∨ c = '|' ∨ isBlank c = true
    · refine .here [] (.ok [.operand value]) fun more ↦ ?_
      rw [List.nil_append, argumentsBehind, if_neg hcomma, if_pos hend]
      rfl
    · refine .here [] (.error (.unexpectedCharacter c)) fun more ↦ ?_
      rw [List.nil_append, argumentsBehind, if_neg hcomma, if_neg hend]
      rfl

/-- The recursion is that of `arguments`. Behind a comma the arguments go on in the same way. -/
theorem arguments_looksOneAhead (multiple : Bool) (name : String) (input : List Char) :
    LooksOneAhead (arguments multiple name) input := by
  have hlength := skipBlanks_length_le input
  cases hskip : skipBlanks input with
  | nil =>
    refine .atEnd (.error (.missingArgument name)) ?_
    rw [arguments_eq, hskip]
    rfl
  | cons first rest =>
    obtain ⟨hinput, hstart⟩ := leading_append_cons hskip
    rw [hskip] at hlength
    rw [← hinput]
    by_cases hmissing : first = ',' ∨ first = '|'
    · refine .here _ (.error (.missingArgument name)) fun more ↦ ?_
      have hhead : (first :: more).head? ∈ [none, some ',', some '|'] := by simpa using hmissing
      rw [arguments_eq, skipBlanks_append_cons _ hstart, if_pos hhead]
      rfl
    · apply LooksOneAhead.upTo _ (arguments_blanks name _ hstart hmissing)
      apply (operand_looksOneAhead _).thenRead
      intro value left hread
      have hleft := operand_length_le hread
      have hshorter : left.length - 1 < input.length := by
        simp only [List.length_cons] at hlength hleft
        omega
      exact argumentsBehind_looksOneAhead name value
        (arguments_looksOneAhead multiple name left.tail)
termination_by input.length

theorem filter_looksOneAhead (multiple : Bool) (input : List Char) :
    LooksOneAhead (filter multiple) input := by
  have hinput := leadingWord_append_afterWord input
  by_cases hnil : leadingWord input = []
  · cases input with
    | nil => exact .atEnd (.error .missingFilterName) rfl
    | cons c tail =>
      refine .here [] (.error .missingFilterName) fun more ↦ ?_
      rw [List.nil_append, filter, if_pos (leadingWord_cons_eq_nil hnil more)]
      rfl
  cases hrest : afterWord input with
  | nil =>
    refine .atEnd (.ok (.filter ⟨String.ofList (leadingWord input), []⟩)) ?_
    rw [filter, if_neg hnil, hrest]
    rfl
  | cons c tail =>
    rw [hrest] at hinput
    rw [← hinput]
    by_cases hcolon : c = ':'
    · subst hcolon
      rw [← List.singleton_append, ← List.append_assoc]
      refine .behind _ (fun more ↦ ?_) ((arguments_looksOneAhead multiple
        (String.ofList (leadingWord input)) tail).map fun fragments ↦
          .filter ⟨String.ofList (leadingWord input), fragments.filterMap Fragment.operand?⟩)
      obtain ⟨hleading, hafter⟩ := leadingWord_append_cons hrest more
      rw [List.append_assoc, List.singleton_append]
      simp only [filter, hleading, if_neg hnil, hafter]
    · refine .here _ (.ok (.filter ⟨String.ofList (leadingWord input), []⟩)) fun more ↦ ?_
      obtain ⟨hleading, hafter⟩ := leadingWord_append_cons hrest more
      simp only [filter, hleading, if_neg hnil, hafter]
      split
      · rename_i heq
        exact absurd (List.cons.inj heq).1 hcolon
      · rfl

/-- At a bar, a filter is read and then the others. -/
theorem filters_bar {c : Char} (hbar : c = '|') (rest : List Char) :
    filters multiple ([c] ++ rest) =
      thenRead (filter multiple) (fun fragment after ↦
        (filters multiple after).map fun reading ↦ (fragment :: reading.1, reading.2)) rest := by
  rw [List.singleton_append, filters_cons, if_pos hbar, thenRead]
  cases filter multiple rest <;> rfl

/-- The recursion is that of `filters`. -/
theorem filters_looksOneAhead (multiple : Bool) (input : List Char) :
    LooksOneAhead (filters multiple) input := by
  cases input with
  | nil => exact .atEnd (.ok []) (by rw [filters]; rfl)
  | cons c rest =>
    by_cases hbar : c = '|'
    · rw [← List.singleton_append]
      refine .behind [c] (fun more ↦ filters_bar hbar more)
        ((filter_looksOneAhead multiple rest).thenRead ?_)
      · intro fragment after hread
        have hshorter := filter_length_le hread
        exact (filters_looksOneAhead multiple after).map (fragment :: ·)
    by_cases hend : c = ',' ∨ isBlank c = true
    · refine .here [] (.ok []) fun more ↦ ?_
      rw [List.nil_append, filters_cons, if_neg hbar, if_pos hend]
      rfl
    · refine .here [] (.error (.unexpectedCharacter c)) fun more ↦ ?_
      rw [List.nil_append, filters_cons, if_neg hbar, if_neg hend]
      rfl
termination_by input.length

/-! ### Whole texts -/

/-- An expression that is not missing begins with an operand. -/
theorem head_blanks (blanks : Blanks) {c : Char} (hblank : isBlank c = false) (hcomma : c ≠ ',')
    (hbar : c ≠ '|') (rest : List Char) :
    head multiple (blanks.text ++ c :: rest) =
      thenRead operand (fun value after ↦
        (filters multiple after).map fun reading ↦ (.operand value :: reading.1, reading.2))
        (c :: rest) := by
  rw [head, skipBlanks_append_cons blanks hblank, thenRead]
  simp only [if_neg hcomma, if_neg hbar]
  cases operand (c :: rest) <;> rfl

/-- Expressions look one character ahead. -/
theorem head_looksOneAhead (multiple : Bool) (input : List Char) :
    LooksOneAhead (head multiple) input := by
  cases hskip : skipBlanks input with
  | nil => exact .empty (by rw [head, hskip])
  | cons c rest =>
    obtain ⟨hinput, hstart⟩ := leading_append_cons hskip
    rw [← hinput]
    have hhead (more : List Char) := skipBlanks_append_cons (.leading input) hstart more
    by_cases hcomma : c = ','
    · refine .here _ (.error (.unexpectedTerminator c)) fun more ↦ ?_
      simp only [head, hhead, if_pos hcomma]
      rfl
    by_cases hbar : c = '|'
    · refine .here _ (.error (.unexpectedCharacter c)) fun more ↦ ?_
      simp only [head, hhead, if_neg hcomma, if_pos hbar]
      rfl
    · refine .upTo _ (head_blanks _ hstart hcomma hbar) ((operand_looksOneAhead _).thenRead ?_)
      · intro value after _
        exact (filters_looksOneAhead multiple after).map (.operand value :: ·)

/-- An eager fault of a whole text is that of every text that begins with the same text up to the
character at the place of the fault. -/
theorem whole_settled {input tail : List Char} {c : Char} {problem : Problem}
    (heager : problem.Eager)
    (h : whole multiple input = .error (.located (c :: tail) problem)) :
    ∃ front, input = front ++ c :: tail ∧
      ∀ other, whole multiple (front ++ c :: other) = .error (.located (c :: other) problem) := by
  unfold whole at h
  split at h
  · rename_i stop hread
    cases h
    obtain ⟨front, hfront, hother⟩ := head_looksOneAhead multiple input (.error problem) c tail
      (fun _ heq ↦ by cases heq; exact heager) hread
    refine ⟨front, hfront, fun other ↦ ?_⟩
    simp only [whole, hother, endingAt]
  · cases h
  · rename_i fragments found rest hread
    split at h
    · cases h
    · cases h
      -- only a comma is told without what stands behind it
      obtain rfl : c = ',' := by
        simpa [Problem.Eager, Problem.OfCharacter, Problem.OfAbsence] using heager
      obtain ⟨front, hfront, hother⟩ := head_looksOneAhead multiple input (.ok fragments) ',' tail
        (by rintro problem ⟨⟩) hread
      exact ⟨front, hfront, fun other ↦ whole_eq_error_of_head (hother other)⟩

/-- A blank with more text behind it is a fault of every text that begins with the same text up to
the first character behind the blanks. -/
theorem whole_settled_of_blank {input tail : List Char} {found : Char}
    (hfound : isBlank found = true)
    (h : whole multiple input = .error (.located (found :: tail) (.unexpectedTerminator found))) :
    ∃ (front : List Char) (blanks : Blanks) (c : Char) (rest : List Char),
      input = front ++ found :: tail ∧ found :: tail = blanks.text ++ c :: rest ∧
      isBlank c = false ∧
      ∀ other, whole multiple (front ++ (blanks.text ++ c :: other)) =
        .error (.located (blanks.text ++ c :: other) (.unexpectedTerminator found)) := by
  rcases whole_stops h with ⟨-, hstop⟩ | hstops | ⟨fragments, first, rest, hread, hskip, hstop⟩
  · cases hstop
  · obtain ⟨_, _, _, _, _, hcomma⟩ := hstops
    rw [hcomma found rfl] at hfound
    exact absurd hfound (by decide)
  · cases hstop
    obtain ⟨front, hfront, hother⟩ := head_looksOneAhead multiple input (.ok fragments) found tail
      (by rintro problem ⟨⟩) hread
    obtain ⟨c, left, hc⟩ := List.exists_cons_of_ne_nil hskip
    obtain ⟨hsplit, hblank⟩ := leading_append_cons hc
    refine ⟨front, .leading (found :: tail), c, left, hfront, hsplit.symm, hblank, fun other ↦ ?_⟩
    obtain ⟨more, hmore⟩ := exists_cons_of_append_cons hsplit.symm other
    have hrest : skipBlanks (found :: more) = c :: other := by
      rw [← hmore, skipBlanks_append_cons _ hblank]
    rw [hmore, whole, hother]
    simp only [endingAt, hrest, if_neg (List.cons_ne_nil c other)]

end Scan

namespace Expression

variable {options : Options} {source : String}

/-- Every source that begins with the text has the fault. -/
def SettledBy (options : Options) (front : List Char) (error : ScanError) : Prop :=
  ∀ other : String, front <+: other.toList → scan options other = .error error

theorem utf8ByteSize_eq {front rest : List Char} (hsource : source.toList = front ++ rest) :
    source.utf8ByteSize =
      (String.ofList front).utf8ByteSize + (String.ofList rest).utf8ByteSize := by
  rw [← String.utf8ByteSize_append, ← String.ofList_append, ← hsource, String.ofList_toList]

/-- A fault at a place of the text is a fault of the source, with the bytes before the place. -/
theorem scan_eq_located {front rest : List Char} {problem : Problem}
    (hsource : source.toList = front ++ rest)
    (hwhole : Scan.whole options.multipleArguments (front ++ rest) =
      .error (.located rest problem)) :
    scan options source = .error (.located (String.ofList front).utf8ByteSize problem) := by
  refine scan_eq_error_iff.2 ⟨.located rest problem, by rw [hsource, hwhole], ?_⟩
  rw [Fault.map, hsource, Scan.offsetIn_append, Scan.byteSize_eq]

/-- A fault that is there whatever follows its place is settled by the character at it. -/
theorem settledBy_of_whole {front : List Char} {c : Char} {problem : Problem}
    (hwhole : ∀ other, Scan.whole options.multipleArguments (front ++ c :: other) =
      .error (.located (c :: other) problem)) :
    SettledBy options (front ++ [c])
      (.located (String.ofList front).utf8ByteSize problem) := by
  rintro other ⟨rest, hrest⟩
  rw [List.append_assoc, List.singleton_append] at hrest
  exact scan_eq_located hrest.symm (hwhole rest)

/-- Faults are found late enough and soon enough. The text before the place of a fault begins some
text that is read. Where the fault is with the character at its place, or with something that should
stand before that character, every source with the same text up to that character has it; and where
a blank ends the expression, every source with the same text up to the next character that is not
blank. -/
theorem scan_error_settled (options : Options) (source : String) (offset : Nat) (problem : Problem)
    (h : scan options source = .error (.located offset problem)) :
    ∃ front rest, source.toList = front ++ rest ∧ (String.ofList front).utf8ByteSize = offset ∧
      (∃ more tree, scan options (.ofList (front ++ more)) = .ok tree) ∧
      (problem.OfCharacter ∨ (problem.OfAbsence ∧ offset < source.utf8ByteSize) →
        ∃ c tail, rest = c :: tail ∧
          SettledBy options (front ++ [c]) (.located offset problem)) ∧
      (∀ found, problem = .unexpectedTerminator found → isBlank found = true →
        ∃ blanks c tail, rest = blanks ++ c :: tail ∧ (∀ blank ∈ blanks, isBlank blank = true) ∧
          isBlank c = false ∧
          SettledBy options (front ++ (blanks ++ [c])) (.located offset problem)) := by
  obtain ⟨front, rest, hsource, hoffset, hfits, ⟨more, hmore⟩, hwhole⟩ := exists_place_of_scan h
  refine ⟨front, rest, hsource, hoffset, ?_, ?_, ?_⟩
  · obtain ⟨derivation, htext⟩ := hmore.exists_derivation
    refine ⟨more, derivation.tree, scan_eq_ok_iff.2 ?_⟩
    rw [String.toList_ofList, ← htext]
    exact Scan.expression_text derivation
  · intro heager
    obtain ⟨c, tail, rfl⟩ : ∃ c tail, rest = c :: tail := by
      cases rest with
      | cons c tail => exact ⟨c, tail, rfl⟩
      | nil =>
        rcases heager with hcharacter | ⟨-, hlt⟩
        · exact (hcharacter.not_fits_nil front hfits).elim
        · rw [utf8ByteSize_eq hsource, hoffset] at hlt
          exact absurd hlt (Nat.lt_irrefl offset)
    refine ⟨c, tail, rfl, ?_⟩
    obtain ⟨other, hother, hsettled⟩ := Scan.whole_settled (heager.imp_right And.left) hwhole
    rw [hsource] at hother
    obtain rfl := List.append_cancel_right hother
    rw [← hoffset]
    exact settledBy_of_whole hsettled
  · rintro found rfl hfound
    obtain ⟨tail, rfl⟩ := List.head?_eq_some_iff.1 hfits.1
    obtain ⟨other, blanks, c, left, hother, hrest, hc, hsettled⟩ :=
      Scan.whole_settled_of_blank hfound hwhole
    rw [hsource] at hother
    obtain rfl := List.append_cancel_right hother
    refine ⟨blanks.text, c, left, hrest, blanks.isBlank_of_mem, hc, ?_⟩
    rintro another ⟨more, hmore⟩
    rw [List.append_assoc, List.append_assoc, List.singleton_append] at hmore
    rw [← hoffset]
    exact scan_eq_located hmore.symm (hsettled more)

/-- A bar where an argument is due. -/
theorem scan_error_settled_join :
    scan {} "name|join: |upper" = .error (.located 11 (.missingArgument "join")) ∧
      ∃ front rest, "name|join: |upper".toList = front ++ rest ∧
        (String.ofList front).utf8ByteSize = 11 ∧
        (∃ more tree, scan {} (.ofList (front ++ more)) = .ok tree) ∧
        ∃ c tail, rest = c :: tail ∧
          SettledBy {} (front ++ [c]) (.located 11 (.missingArgument "join")) := by
  have hfault : scan {} "name|join: |upper" = .error (.located 11 (.missingArgument "join")) := by
    decide +kernel
  obtain ⟨front, rest, hsource, hoffset, hgoesOn, heager, -⟩ :=
    scan_error_settled {} "name|join: |upper" 11 (.missingArgument "join") hfault
  exact ⟨hfault, front, rest, hsource, hoffset, hgoesOn,
    heager (Or.inr ⟨trivial, by decide +kernel⟩)⟩

end Expression

end Stencil
