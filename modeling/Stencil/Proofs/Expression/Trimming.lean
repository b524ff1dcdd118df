import Stencil.Proofs.Expression.Lookahead

/-!
Blanks around an expression. Blanks before a text are skipped at once. Blanks behind it are what is
left when the text has been read: every reader reads the text as it does alone, and leaves the
blanks behind what it left (`Scan.Blind`). The one place that they move is that of an argument that
is missing at the end, since blanks behind a colon or a comma are skipped before an argument is
missed (`Scan.stopBefore`). Each reader is blind to blanks because the readers that it calls are.

So a source and its trimmed text denote the same expression or have the same fault, and the two
places of the fault are told from each other (`Expression.scan_trim`).
-/

set_option autoImplicit false
set_option relaxedAutoImplicit false

namespace Stencil

open Stencil.Derivation Text

theorem Text.ne_of_isBlank {c other : Char} (hblank : isBlank c = true)
    (hother : isBlank other = false) : c ≠ other := by
  rintro rfl
  exact Bool.eq_false_iff.1 hother hblank

namespace Derivation.Blanks

theorem startsOutside_isWord (blanks : Blanks) : StartsOutside isWord blanks.text :=
  fun c hc ↦ isWord_eq_false_of_isBlank (blanks.isBlank_of_mem c (List.mem_of_mem_head? hc))

theorem startsOutside_isDigit (blanks : Blanks) : StartsOutside Char.isDigit blanks.text :=
  fun c hc ↦ Bool.eq_false_iff.2 fun hdigit ↦
    Bool.eq_false_iff.1 (blanks.startsOutside_isWord c hc) (isWord_of_isDigit hdigit)

/-- A character that is not blank does not stand among blanks. -/
theorem not_mem {c : Char} (hc : isBlank c = false) (blanks : Blanks) : c ∉ blanks.text :=
  fun hmem ↦ Bool.eq_false_iff.1 hc (blanks.isBlank_of_mem c hmem)

end Derivation.Blanks

namespace Scan

variable {α β : Type}

/-! ### Blanks behind a text -/

/-- The stop for the same text with further text behind it. An argument that is missing at the end
is missing at the end of the longer text. -/
def stopBefore (trail : List Char) : Stop → Stop
  | .emptyExpression => .emptyExpression
  | .located place (.missingArgument name) =>
    .located (if place = [] then [] else place ++ trail) (.missingArgument name)
  | .located place problem => .located (place ++ trail) problem

/-- The outcome for the same text with further text behind it, which is left. -/
def before (trail : List Char) : Except Stop (α × List Char) → Except Stop (α × List Char)
  | .ok (value, rest) => .ok (value, rest ++ trail)
  | .error stop => .error (stopBefore trail stop)

/-- The text is read as it is without the blanks behind it, and these are left. -/
def Blind (trail : Blanks) (reader : List Char → Except Stop (α × List Char))
    (input : List Char) : Prop :=
  reader (input ++ trail.text) = before trail.text (reader input)

/-- An outcome that is reached in the text is reached there with blanks behind it. -/
theorem before_endingAt_cons (trail : List Char) (outcome : Except Problem α) (c : Char)
    (rest : List Char) :
    before trail (endingAt (c :: rest) outcome) = endingAt (c :: (rest ++ trail)) outcome := by
  rcases outcome with problem | value
  · cases problem <;> rfl
  · rfl

namespace Blind

variable {trail : Blanks} {reader next : List Char → Except Stop (α × List Char)}
  {input : List Char}

/-- A run that ends before a character whatever follows the character. -/
theorem here (front : List Char) {first : Char} {rest : List Char} (outcome : Except Problem α)
    (hreader : ∀ more, reader (front ++ first :: more) = endingAt (first :: more) outcome) :
    Blind trail reader (front ++ first :: rest) := by
  rw [Blind, List.append_assoc, List.cons_append, hreader, hreader, before_endingAt_cons]

/-- A run that ends before a blank as it ends with the text. -/
theorem atEnd (value : α) (hend : reader [] = .ok (value, []))
    (hblank : ∀ c rest, isBlank c = true → reader (c :: rest) = .ok (value, c :: rest)) :
    Blind trail reader [] := by
  rw [Blind, List.nil_append, hend]
  cases htrail : trail.text with
  | nil => exact hend
  | cons c rest =>
    exact hblank c rest (trail.isBlank_of_mem c (htrail ▸ List.mem_cons_self))

/-- A text that is read up to a character, and then on from that character. -/
theorem upTo (front : List Char) {first : Char} {rest : List Char}
    (hreader : ∀ more, reader (front ++ first :: more) = next (first :: more))
    (hnext : Blind trail next (first :: rest)) : Blind trail reader (front ++ first :: rest) := by
  rw [Blind, List.append_assoc, List.cons_append, hreader, hreader]
  exact hnext

/-- A text that is read without regard to what follows, and then on behind it. -/
theorem behind (front : List Char) {rest : List Char}
    (hreader : ∀ more, reader (front ++ more) = next more) (hnext : Blind trail next rest) :
    Blind trail reader (front ++ rest) := by
  rw [Blind, List.append_assoc, hreader, hreader]
  exact hnext

/-- A value that is there before anything is read. -/
theorem pure (value : α) (input : List Char) :
    Blind trail (fun text ↦ .ok (value, text)) input :=
  rfl

/-- Readers that are blind to the blanks are so one after the other. -/
theorem thenRead {first : List Char → Except Stop (β × List Char)}
    {next : β → List Char → Except Stop (α × List Char)} (hfirst : Blind trail first input)
    (hnext : ∀ value rest, first input = .ok (value, rest) → Blind trail (next value) rest) :
    Blind trail (Scan.thenRead first next) input := by
  rw [Blind, Scan.thenRead, Scan.thenRead, hfirst]
  rcases hread : first input with stop | ⟨value, rest⟩
  · rfl
  · exact hnext value rest hread

theorem map (change : α → β) (hblind : Blind trail reader input) :
    Blind trail (fun text ↦ (reader text).map fun reading ↦ (change reading.1, reading.2))
      input := by
  rw [map_eq_thenRead]
  exact hblind.thenRead fun value rest _ ↦ .pure (change value) rest

end Blind

/-! ### Operands -/

variable {trail : Blanks}

theorem leadingWord_append_blanks (input : List Char) :
    leadingWord (input ++ trail.text) = leadingWord input :=
  (run_append_of_startsOutside input trail.startsOutside_isWord).1

theorem afterWord_append_blanks (input : List Char) :
    afterWord (input ++ trail.text) = afterWord input ++ trail.text :=
  (run_append_of_startsOutside input trail.startsOutside_isWord).2

/-- A character that is not blank is no more at the front of a text for the blanks behind it. -/
theorem head?_append_blanks_ne {input : List Char} {c : Char} (hc : isBlank c = false)
    (hinput : input.head? ≠ some c) : (input ++ trail.text).head? ≠ some c := by
  rw [List.head?_append]
  cases hhead : input.head? with
  | some first => rwa [hhead] at hinput
  | none => exact fun hblank ↦ trail.not_mem hc (List.mem_of_mem_head? hblank)

theorem number_blind (input : List Char) : Blind trail Number.read input := by
  have hdigits (text : List Char) := run_append_of_startsOutside text trail.startsOutside_isDigit
  have hleading (text : List Char) : leadingDigits (text ++ trail.text) = leadingDigits text :=
    (hdigits text).1
  have hafter (text : List Char) :
      afterDigits (text ++ trail.text) = afterDigits text ++ trail.text := (hdigits text).2
  by_cases hpoint : (afterDigits input).head? = some '.'
  · obtain ⟨rest, hrest⟩ := List.head?_eq_some_iff.1 hpoint
    have hlonger : afterDigits (input ++ trail.text) = '.' :: (rest ++ trail.text) := by
      rw [hafter, hrest, List.cons_append]
    rw [Blind, Number.read_of_point hrest, Number.read_of_point hlonger, hleading, hleading, hafter]
    cases Binary64.ofDecimal (leadingDigits input) (leadingDigits rest) <;> rfl
  · have hlonger : (afterDigits (input ++ trail.text)).head? ≠ some '.' := by
      rw [hafter]
      exact head?_append_blanks_ne (by decide) hpoint
    rw [Blind, Number.read_of_not_point hpoint, Number.read_of_not_point hlonger, hleading, hafter]
    split <;> rfl

theorem readWhole_blind (input : List Char) : Blind trail Number.readWhole input := by
  rw [readWhole_eq_thenRead]
  refine (number_blind input).thenRead fun value rest _ ↦ ?_
  cases rest with
  | nil =>
    refine .atEnd value rfl fun c rest hblank ↦ ?_
    have hpoint : c ≠ '.' := ne_of_isBlank hblank (by decide)
    have hflaw : Number.flawBefore? (c :: rest) = none := by
      simp [Number.flawBefore?, hpoint, isWord_eq_false_of_isBlank hblank]
    simp only [hflaw]
  | cons c tail =>
    cases hflaw : Number.flawBefore? (c :: tail) with
    | none =>
      refine .here [] (.ok value) fun more ↦ ?_
      have hsame : Number.flawBefore? (c :: more) = none := hflaw
      simp only [List.nil_append, hsame, endingAt]
    | some flaw =>
      refine .here [] (.error (.malformedNumber flaw)) fun more ↦ ?_
      have hsame : Number.flawBefore? (c :: more) = some flaw := hflaw
      simp only [List.nil_append, hsame, endingAt]

/-- The induction is on the text. Behind a point the names go on in the same way. -/
theorem readSegments_blind (input : List Char) : Blind trail Lookup.readSegments input := by
  fun_induction Lookup.readSegments input with
  | case1 input hnil =>
    have hleading : leadingWord (input ++ trail.text) = [] := by
      rw [leadingWord_append_blanks, hnil]
    rw [Blind, Lookup.readSegments_eq, Lookup.readSegments_eq, if_pos hnil, if_pos hleading]
    rfl
  | case2 input hne tail htail _ ih =>
    rw [Blind, Lookup.readSegments_eq, Lookup.readSegments_eq, leadingWord_append_blanks,
      afterWord_append_blanks, htail, if_neg hne, if_neg hne]
    exact ih.map (String.ofList (leadingWord input) :: ·)
  | case3 input hne hpoint =>
    have hpoint : (afterWord input).head? ≠ some '.' := by
      rw [ne_eq, List.head?_eq_some_iff]
      rintro ⟨rest, hrest⟩
      exact hpoint rest hrest
    have hlonger : (afterWord (input ++ trail.text)).head? ≠ some '.' := by
      rw [afterWord_append_blanks]
      exact head?_append_blanks_ne (by decide) hpoint
    have hword : leadingWord (input ++ trail.text) ≠ [] := by rwa [leadingWord_append_blanks]
    rw [Blind, Lookup.readSegments_of_not_point hne hpoint,
      Lookup.readSegments_of_not_point hword hlonger,
      leadingWord_append_blanks, afterWord_append_blanks]
    rfl

theorem lookup_blind (c : Char) (tail : List Char) : Blind trail Lookup.read (c :: tail) := by
  by_cases hword : isWord c = true
  · refine .upTo [] (fun more ↦ ?_) (readSegments_blind (c :: tail))
    rw [List.nil_append, Lookup.read, List.head?_cons]
    exact if_pos hword
  · refine .here [] (.error (.unexpectedCharacter c)) fun more ↦ ?_
    rw [List.nil_append, Lookup.read, List.head?_cons]
    exact if_neg hword

/-- Blanks do not close a quoted text. -/
theorem read?_append_blanks (trail : Blanks) {quote : Char} (hquote : Literal.isQuote quote = true)
    {input : List Char} (hread : Literal.read? quote input = none) :
    Literal.read? quote (input ++ trail.text) = none := by
  have hkind := (Literal.isQuote_iff quote).1 hquote
  have hquoteBlank : isBlank quote = false := by rcases hkind with rfl | rfl <;> decide
  refine Option.eq_none_iff_forall_ne_some.2 fun ⟨value, rest⟩ hlonger ↦ ?_
  obtain ⟨items, hplain, htext, -⟩ := Literal.exists_items_of_read? hlonger
  obtain ⟨between, rfl, hclosing⟩ | ⟨between, -, hblanks⟩ := List.append_eq_append_iff.1 htext
  · cases between with
    | nil =>
      refine trail.not_mem hquoteBlank ?_
      rw [← List.nil_append trail.text, ← hclosing]
      exact List.mem_cons_self
    | cons c tail =>
      obtain ⟨rfl, -⟩ := List.cons.inj hclosing
      rw [Literal.read?_items hkind hplain tail] at hread
      cases hread
  · refine trail.not_mem hquoteBlank ?_
    rw [hblanks]
    exact List.mem_append_right _ List.mem_cons_self

theorem operand_blind (c : Char) (tail : List Char) : Blind trail operand (c :: tail) := by
  by_cases hnumber : (c.isDigit || c == '.') = true
  · refine .upTo [] (fun more ↦ ?_) ((readWhole_blind (c :: tail)).map Operand.number)
    rw [List.nil_append, operand, if_pos hnumber]
  by_cases hquote : Literal.isQuote c = true
  · cases hread : Literal.read? c tail with
    | none =>
      have hlonger := read?_append_blanks trail hquote hread
      simp only [Blind, List.cons_append, operand, if_neg hnumber, if_pos hquote, hread, hlonger]
      rfl
    | some reading =>
      obtain ⟨value, rest⟩ := reading
      obtain ⟨front, rfl, hother⟩ := exists_front_of_read? hquote hread
      rw [← List.cons_append]
      refine .behind (c :: front) (fun more ↦ ?_) (.pure (.text (String.ofList value)) rest)
      rw [List.cons_append, operand, if_neg hnumber, if_pos hquote, hother]
  · refine .upTo [] (fun more ↦ ?_) ((lookup_blind c tail).map Operand.lookup)
    rw [List.nil_append, operand, if_neg hnumber, if_neg hquote]

/-! ### Arguments and filters -/

variable {multiple : Bool}

theorem skipBlanks_append_eq_nil_iff {input : List Char} :
    skipBlanks (input ++ trail.text) = [] ↔ skipBlanks input = [] := by
  constructor
  · intro hskip
    exact skipBlanks_blanks ⟨input, fun c hc ↦
      isBlank_of_skipBlanks_eq_nil hskip c (List.mem_append_left _ hc)⟩
  · intro hskip
    exact skipBlanks_blanks ⟨input ++ trail.text, fun c hc ↦ (List.mem_append.1 hc).elim
      (isBlank_of_skipBlanks_eq_nil hskip c) (trail.isBlank_of_mem c)⟩

/-- What follows an argument is read the same with blanks behind the text, if the arguments behind a
comma are. -/
theorem argumentsBehind_blind (name : String) (value : Operand) {rest : List Char}
    (hmore : Blind trail (arguments multiple name) rest.tail) :
    Blind trail (argumentsBehind multiple name value) rest := by
  cases rest with
  | nil =>
    refine .atEnd [.operand value] rfl fun c rest hblank ↦ ?_
    have hcomma : ¬(c = ',' ∧ multiple = true) := fun h ↦ ne_of_isBlank hblank (by decide) h.1
    rw [argumentsBehind, if_neg hcomma, if_pos (Or.inr (Or.inr hblank))]
  | cons c tail =>
    by_cases hcomma : c = ',' ∧ multiple = true
    · rw [← List.singleton_append]
      refine .behind [c] (fun more ↦ ?_) (hmore.map (.operand value :: ·))
      exact if_pos hcomma
    by_cases hend : c = ',' ∨ c = '|' ∨ isBlank c = true
    · refine .here [] (.ok [.operand value]) fun more ↦ ?_
      rw [List.nil_append, argumentsBehind, if_neg hcomma, if_pos hend]
      rfl
    · refine .here [] (.error (.unexpectedCharacter c)) fun more ↦ ?_
      rw [List.nil_append, argumentsBehind, if_neg hcomma, if_neg hend]
      rfl

/-- The recursion is that of `arguments`. Behind a comma the arguments go on in the same way. -/
theorem arguments_blind (multiple : Bool) (name : String) (input : List Char) :
    Blind trail (arguments multiple name) input := by
  have hlength := skipBlanks_length_le input
  cases hskip : skipBlanks input with
  | nil =>
    rw [Blind, arguments_eq, arguments_eq, skipBlanks_append_eq_nil_iff.2 hskip, hskip]
    rfl
  | cons first rest =>
    obtain ⟨hinput, hstart⟩ := leading_append_cons hskip
    rw [hskip] at hlength
    rw [← hinput]
    by_cases hmissing : first = ',' ∨ first = '|'
    · refine .here _ (.error (.missingArgument name)) fun more ↦ ?_
      have hhead : (first :: more).head? ∈ [none, some ',', some '|'] := by simpa using hmissing
      rw [arguments_eq, skipBlanks_append_cons _ hstart, if_pos hhead]
      rfl
    · apply Blind.upTo _ (arguments_blanks name _ hstart hmissing)
      apply (operand_blind first rest).thenRead
      intro value left hread
      have hleft := operand_length_le hread
      have hshorter : left.length - 1 < input.length := by
        simp only [List.length_cons] at hlength hleft
        omega
      exact argumentsBehind_blind name value (arguments_blind multiple name left.tail)
termination_by input.length

theorem filter_blind (input : List Char) : Blind trail (filter multiple) input := by
  by_cases hnil : leadingWord input = []
  · have hlonger : leadingWord (input ++ trail.text) = [] := by rw [leadingWord_append_blanks, hnil]
    rw [Blind, filter, filter, if_pos hnil, if_pos hlonger]
    rfl
  have hne : leadingWord (input ++ trail.text) ≠ [] := by rwa [leadingWord_append_blanks]
  by_cases hcolon : (afterWord input).head? = some ':'
  · obtain ⟨rest, hrest⟩ := List.head?_eq_some_iff.1 hcolon
    have hlonger : afterWord (input ++ trail.text) = ':' :: (rest ++ trail.text) := by
      rw [afterWord_append_blanks, hrest, List.cons_append]
    rw [Blind, filter_of_colon hnil hrest, filter_of_colon hne hlonger, leadingWord_append_blanks]
    exact (arguments_blind multiple (String.ofList (leadingWord input)) rest).map fun fragments ↦
      Fragment.filter ⟨String.ofList (leadingWord input), fragments.filterMap Fragment.operand?⟩
  · have hlonger : (afterWord (input ++ trail.text)).head? ≠ some ':' := by
      rw [afterWord_append_blanks]
      exact head?_append_blanks_ne (by decide) hcolon
    rw [Blind, filter_of_not_colon hnil hcolon, filter_of_not_colon hne hlonger,
      leadingWord_append_blanks, afterWord_append_blanks]
    rfl

/-- The recursion is that of `filters`. -/
theorem filters_blind (multiple : Bool) (input : List Char) :
    Blind trail (filters multiple) input := by
  cases input with
  | nil =>
    refine .atEnd [] (by rw [filters]) fun c rest hblank ↦ ?_
    have hbar : c ≠ '|' := ne_of_isBlank hblank (by decide)
    rw [filters_cons, if_neg hbar, if_pos (Or.inr hblank)]
  | cons c rest =>
    by_cases hbar : c = '|'
    · rw [← List.singleton_append]
      refine .behind [c] (fun more ↦ filters_bar hbar more) ((filter_blind rest).thenRead ?_)
      · intro fragment after hread
        have hshorter := filter_length_le hread
        exact (filters_blind multiple after).map (fragment :: ·)
    by_cases hend : c = ',' ∨ isBlank c = true
    · refine .here [] (.ok []) fun more ↦ ?_
      rw [List.nil_append, filters_cons, if_neg hbar, if_pos hend]
      rfl
    · refine .here [] (.error (.unexpectedCharacter c)) fun more ↦ ?_
      rw [List.nil_append, filters_cons, if_neg hbar, if_neg hend]
      rfl
termination_by input.length

/-! ### Whole texts -/

/-- Expressions are read the same with blanks behind the text. -/
theorem head_blind (input : List Char) : Blind trail (head multiple) input := by
  cases hskip : skipBlanks input with
  | nil =>
    rw [Blind, head, head, skipBlanks_append_eq_nil_iff.2 hskip, hskip]
    rfl
  | cons c rest =>
    obtain ⟨hinput, hstart⟩ := leading_append_cons hskip
    rw [← hinput]
    have hhead (more : List Char) := skipBlanks_append_cons (.leading input) hstart more
    by_cases hcomma : c = ','
    · refine .here _ (.error (.unexpectedTerminator c)) fun more ↦ ?_
      simp only [head, hhead, if_pos hcomma]
      rfl
    by_cases hbar : c = '|'
    · refine .here _ (.error (.unexpectedCharacter c)) fun more ↦ ?_
      simp only [head, hhead, if_neg hcomma, if_pos hbar]
      rfl
    · refine .upTo _ (head_blanks _ hstart hcomma hbar) ((operand_blind c rest).thenRead ?_)
      intro value after _
      exact (filters_blind multiple after).map (.operand value :: ·)

/-- An expression with nothing but blanks behind it is a whole text. -/
theorem whole_of_head {input rest : List Char} {fragments : List Fragment}
    (hread : head multiple input = .ok (fragments, rest)) (hskip : skipBlanks rest = []) :
    whole multiple input = .ok fragments := by
  cases rest with
  | nil => simp only [whole, hread]
  | cons found tail => simp only [whole, hread, if_pos hskip]

/-- Blanks in front are skipped, and blanks behind are no part of the expression. -/
theorem whole_append_blanks (leading : Blanks) (input : List Char) :
    whole multiple (leading.text ++ (input ++ trail.text)) =
      (whole multiple input).mapError (stopBefore trail.text) := by
  have hhead : head multiple (leading.text ++ (input ++ trail.text)) =
      before trail.text (head multiple input) := by
    rw [head, skipBlanks, List.dropWhile_append_of_pos leading.isBlank_of_mem, ← skipBlanks, ← head]
    exact head_blind input
  rcases hread : head multiple input with stop | ⟨fragments, rest⟩
  · simp only [whole, hhead, hread]
    rfl
  rw [hread] at hhead
  by_cases hskip : skipBlanks rest = []
  · rw [whole_of_head hread hskip, whole_of_head hhead (skipBlanks_append_eq_nil_iff.2 hskip)]
    rfl
  obtain ⟨found, tail, rfl⟩ : ∃ found tail, rest = found :: tail :=
    List.exists_cons_of_ne_nil fun hnil ↦ hskip (by rw [hnil]; rfl)
  have hlonger : skipBlanks (found :: (tail ++ trail.text)) ≠ [] :=
    fun hnil ↦ hskip (skipBlanks_append_eq_nil_iff.1 hnil)
  simp only [whole, hhead, hread, before, List.cons_append, if_neg hskip, if_neg hlonger]
  rfl

/-- A text is read the same with blanks around it, with its fault moved before those at the end. -/
theorem expression_append_blanks (leading : Blanks) (input : List Char) :
    expression multiple (leading.text ++ (input ++ trail.text)) =
      (expression multiple input).mapError (stopBefore trail.text) := by
  rw [expression, expression, whole_append_blanks]
  rcases whole multiple input with stop | fragments
  · rfl
  · simp only [Except.mapError]
    cases Expression.ofFragments? fragments <;> rfl

end Scan

/-! ### Sources -/

namespace Derivation.Blanks

/-- The blanks at the end of the text, if it is not blank as a whole. -/
def trailing (input : List Char) : Blanks :=
  ⟨(leading (skipBlanks input).reverse).text.reverse, fun c hc ↦
    (leading (skipBlanks input).reverse).isBlank_of_mem c (List.mem_reverse.1 hc)⟩

end Derivation.Blanks

/-- A text is its leading blanks, the trimmed text and its trailing blanks. -/
theorem Text.leading_append_trimBlanks (input : List Char) :
    (Blanks.leading input).text ++ (trimBlanks input ++ (Blanks.trailing input).text) = input := by
  have hreverse := leading_append_skipBlanks (skipBlanks input).reverse
  rw [trimBlanks, Blanks.trailing, ← List.reverse_append, hreverse, List.reverse_reverse]
  exact leading_append_skipBlanks input

/-- The number of bytes that trimming takes from the front. -/
def Text.indentation (source : String) : Nat :=
  (String.ofList (source.toList.takeWhile isBlank)).utf8ByteSize

/-- The fault of a source whose trimmed text has the fault. Its place is moved by the blanks in
front, but for an argument that is missing at the end, which is the end of either text. -/
def Fault.untrim (source : String) : ScanError → ScanError
  | .emptyExpression => .emptyExpression
  | .located offset (.missingArgument name) =>
    .located (if offset = (trim source).utf8ByteSize then source.utf8ByteSize
      else indentation source + offset) (.missingArgument name)
  | .located offset problem => .located (indentation source + offset) problem

namespace Expression

variable {options : Options} {source : String}

/-- A source is its leading blanks, the trimmed source and its trailing blanks. -/
theorem toList_eq_append_trim (source : String) :
    source.toList = (Blanks.leading source.toList).text ++
      ((trim source).toList ++ (Blanks.trailing source.toList).text) := by
  rw [trim, String.toList_ofList, leading_append_trimBlanks]

/-- A place before the blanks at the end, in bytes of the source, is the place in the trimmed text
moved as `Fault.untrim` says. -/
theorem map_stopBefore {front place : List Char} (problem : Problem)
    (htrim : (trim source).toList = front ++ place) :
    (Scan.stopBefore (Blanks.trailing source.toList).text (.located place problem)).map
        (Scan.offsetIn source.toList) =
      Fault.untrim source (.located (String.ofList front).utf8ByteSize problem) := by
  have hsource : (Blanks.leading source.toList).text ++ front ++
      (place ++ (Blanks.trailing source.toList).text) = source.toList := by
    rw [List.append_assoc, ← List.append_assoc front, ← htrim, ← toList_eq_append_trim]
  have hoffset := Scan.offsetIn_append ((Blanks.leading source.toList).text ++ front)
    (place ++ (Blanks.trailing source.toList).text)
  rw [hsource, Scan.byteSize_append, Scan.byteSize_eq, Scan.byteSize_eq] at hoffset
  cases problem with
  | missingArgument name =>
    have hsize := utf8ByteSize_eq htrim
    by_cases hplace : place = []
    · subst hplace
      have hend : Scan.offsetIn source.toList [] = source.utf8ByteSize := by
        rw [Scan.offsetIn, Scan.byteSize_eq, String.ofList_toList]
        rfl
      have hbefore : (String.ofList front).utf8ByteSize = (trim source).utf8ByteSize := hsize.symm
      rw [Scan.stopBefore, if_pos rfl, Fault.map, hend, Fault.untrim, if_pos hbefore]
    · have hpositive : (String.ofList place).utf8ByteSize ≠ 0 := by
        rw [ne_eq, String.utf8ByteSize_eq_zero_iff, String.ofList_eq_empty_iff]
        exact hplace
      have hbefore : (String.ofList front).utf8ByteSize ≠ (trim source).utf8ByteSize := by omega
      rw [Scan.stopBefore, if_neg hplace, Fault.map, hoffset, Fault.untrim, if_neg hbefore]
      rfl
  | _ => exact congrArg (Fault.located · _) hoffset

/-- A source and its trimmed text denote the same expression, or have the same fault, and trimming
moves the place of the fault as blanks are taken from the front. -/
theorem scan_trim (options : Options) (source : String) :
    scan options source = (scan options (trim source)).mapError (Fault.untrim source) := by
  cases htrim : scan options (trim source) with
  | ok tree =>
    refine scan_eq_ok_iff.2 ?_
    rw [toList_eq_append_trim, Scan.expression_append_blanks, scan_eq_ok_iff.1 htrim]
    rfl
  | error error =>
    obtain ⟨stop, hread, rfl⟩ := scan_eq_error_iff.1 htrim
    have hwhole : Scan.whole options.multipleArguments source.toList =
        .error (Scan.stopBefore (Blanks.trailing source.toList).text stop) := by
      conv_lhs => rw [toList_eq_append_trim, Scan.whole_append_blanks, hread]
      rfl
    refine scan_eq_error_iff.2 ⟨_, hwhole, ?_⟩
    cases stop with
    | emptyExpression => rfl
    | located place problem =>
      obtain ⟨front, rest, hsplit, hoffset, -, -, hplace⟩ := exists_place_of_scan htrim
      obtain rfl : rest = place := by
        rw [hread] at hplace
        cases hplace
        rfl
      rw [map_stopBefore problem hsplit, hoffset]
      rfl

end Expression

end Stencil
