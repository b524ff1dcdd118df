import Stencil.Expression.Literal
import Stencil.Expression.Lookup
import Stencil.Expression.Number
import Stencil.Text.Blank

/-!
Reading expressions. A text is an operand, then filters, each behind a bar; blanks may stand at
both ends, behind the colon that opens a filter's arguments and behind each comma between them, and
nowhere else. Reading goes from left to right and never looks back. A run gives the fragments that
it read, in order, with the text it left: `arguments` reads operands parted by commas, `filters`
reads filters behind bars, and `head` reads an operand and the filters behind it.

A run ends at the first character that cannot continue it, and whether the text may end there is
for the caller to say. Where a filter takes one argument only, a comma ends its arguments.

`Expression.scan` reads a whole text and locates a fault by its byte offset.
-/

set_option autoImplicit false
set_option relaxedAutoImplicit false

namespace Stencil

/-- How expressions are read, and whether what was read is kept for later. -/
structure Options where
  /-- Whether commas part several arguments of one filter. -/
  multipleArguments : Bool := true
  /-- Whether compiled expressions are shared through a cache. -/
  caching : Bool := true
deriving DecidableEq

namespace Scan

open Text

/-- The operand at the front of the text, told by its first character, and what follows it. -/
def operand (input : List Char) : Except Stop (Operand × List Char) :=
  match input with
  | [] => .error (.located [] .emptySegment)
  | c :: rest =>
    if c.isDigit || c == '.' then
      (Number.readWhole input).map fun reading ↦ (.number reading.1, reading.2)
    else if Literal.isQuote c then
      match Literal.read? c rest with
      | some (value, after) => .ok (.text (String.ofList value), after)
      | none => .error (.located input .unterminatedText)
    else (Lookup.read input).map fun reading ↦ (.lookup reading.1, reading.2)

theorem operand_length_le {input rest : List Char} {value : Operand}
    (h : operand input = .ok (value, rest)) : rest.length ≤ input.length := by
  unfold operand at h
  split at h
  · cases h
  rename_i c tail
  split at h
  · cases hread : Number.readWhole (c :: tail) with
    | error stop => simp [hread, Except.map] at h
    | ok reading =>
      simp only [hread, Except.map, Except.ok.injEq, Prod.mk.injEq] at h
      rw [← h.2]
      exact Number.readWhole_length_le _ reading.2 reading.1 hread
  split at h
  · split at h
    · rename_i text after hread
      cases h
      have := Literal.read?_length_le c tail text rest hread
      simp only [List.length_cons]
      omega
    · cases h
  · cases hread : Lookup.read (c :: tail) with
    | error stop => simp [hread, Except.map] at h
    | ok reading =>
      simp only [hread, Except.map, Except.ok.injEq, Prod.mk.injEq] at h
      rw [← h.2]
      exact Lookup.read_length_le _ reading.2 reading.1 hread

/-- The arguments of the filter from behind its colon on, or from behind a comma. At least one
operand has to be there. -/
def arguments (multiple : Bool) (name : String) (input : List Char) :
    Except Stop (List Fragment × List Char) :=
  if (skipBlanks input).head? ∈ [none, some ',', some '|'] then
    .error (.located (skipBlanks input) (.missingArgument name))
  else
    match hread : operand (skipBlanks input) with
    | .error stop => .error stop
    | .ok (value, []) => .ok ([.operand value], [])
    | .ok (value, c :: rest) =>
      if c = ',' ∧ multiple = true then
        have : rest.length < input.length := by
          have hoperand := operand_length_le hread
          have hskip := skipBlanks_length_le input
          simp only [List.length_cons] at hoperand
          omega
        (arguments multiple name rest).map fun reading ↦ (.operand value :: reading.1, reading.2)
      else if c = ',' ∨ c = '|' ∨ isBlank c = true then .ok ([.operand value], c :: rest)
      else .error (.located (c :: rest) (.unexpectedCharacter c))
termination_by input.length

/-- An argument, and the others behind a comma, as an equation to rewrite with. -/
theorem arguments_eq (multiple : Bool) (name : String) (input : List Char) :
    arguments multiple name input =
      if (skipBlanks input).head? ∈ [none, some ',', some '|'] then
        .error (.located (skipBlanks input) (.missingArgument name))
      else
        match operand (skipBlanks input) with
        | .error stop => .error stop
        | .ok (value, []) => .ok ([.operand value], [])
        | .ok (value, c :: rest) =>
          if c = ',' ∧ multiple = true then
            (arguments multiple name rest).map fun reading ↦
              (.operand value :: reading.1, reading.2)
          else if c = ',' ∨ c = '|' ∨ isBlank c = true then .ok ([.operand value], c :: rest)
          else .error (.located (c :: rest) (.unexpectedCharacter c)) := by
  rw [arguments]
  split
  · rfl
  · split <;> rename_i hread <;> simp only [hread]

/-- The filter from behind its bar on. -/
def filter (multiple : Bool) (input : List Char) : Except Stop (Fragment × List Char) :=
  let name := String.ofList (leadingWord input)
  if leadingWord input = [] then .error (.located input .missingFilterName)
  else
    match afterWord input with
    | ':' :: rest =>
      (arguments multiple name rest).map fun reading ↦
        (.filter ⟨name, reading.1.filterMap Fragment.operand?⟩, reading.2)
    | rest => .ok (.filter ⟨name, []⟩, rest)

theorem arguments_length_le {multiple : Bool} {name : String} {input rest : List Char}
    {fragments : List Fragment} (h : arguments multiple name input = .ok (fragments, rest)) :
    rest.length ≤ input.length := by
  fun_induction arguments multiple name input generalizing fragments rest with
  | case1 => cases h
  | case2 => cases h
  | case3 => cases h; simp
  | case4 input _ value c tail hread _ hlt ih =>
    cases hmore : arguments multiple name tail with
    | error stop => simp [hmore, Except.map] at h
    | ok reading =>
      simp only [hmore, Except.map, Except.ok.injEq, Prod.mk.injEq] at h
      have := ih hmore
      rw [← h.2]
      omega
  | case5 input _ value c tail hread _ _ =>
    cases h
    have hoperand := operand_length_le hread
    have hskip := skipBlanks_length_le input
    omega
  | case6 => cases h

theorem filter_length_le {multiple : Bool} {input rest : List Char} {fragment : Fragment}
    (h : filter multiple input = .ok (fragment, rest)) : rest.length ≤ input.length := by
  have hword := Lookup.afterWord_length_le input
  unfold filter at h
  simp only at h
  split at h
  · cases h
  split at h
  · rename_i tail htail
    have hlt := Lookup.length_lt_of_afterWord_eq_cons htail
    cases hread : arguments multiple (String.ofList (leadingWord input)) tail with
    | error stop => simp [hread, Except.map] at h
    | ok reading =>
      simp only [hread, Except.map, Except.ok.injEq, Prod.mk.injEq] at h
      have := arguments_length_le hread
      rw [← h.2]
      omega
  · cases h
    exact hword

/-- The filters from the first bar on, up to a comma, a blank or the end. -/
def filters (multiple : Bool) (input : List Char) : Except Stop (List Fragment × List Char) :=
  match input with
  | [] => .ok ([], [])
  | c :: rest =>
    if c = '|' then
      match hread : filter multiple rest with
      | .error stop => .error stop
      | .ok (fragment, after) =>
        have : after.length < rest.length + 1 := by
          have hfilter := filter_length_le hread
          omega
        (filters multiple after).map fun reading ↦ (fragment :: reading.1, reading.2)
    else if c = ',' ∨ isBlank c = true then .ok ([], c :: rest)
    else .error (.located (c :: rest) (.unexpectedCharacter c))
termination_by input.length

/-- A filter at its bar and the others behind it; anything but a bar ends the filters. -/
theorem filters_cons (multiple : Bool) (c : Char) (rest : List Char) :
    filters multiple (c :: rest) =
      if c = '|' then
        match filter multiple rest with
        | .error stop => .error stop
        | .ok (fragment, after) =>
          (filters multiple after).map fun reading ↦ (fragment :: reading.1, reading.2)
      else if c = ',' ∨ isBlank c = true then .ok ([], c :: rest)
      else .error (.located (c :: rest) (.unexpectedCharacter c)) := by
  rw [filters]
  split
  · split <;> rename_i hread <;> simp only [hread]
  · rfl

/-- The operand at the start of an expression and the filters behind it. -/
def head (multiple : Bool) (input : List Char) : Except Stop (List Fragment × List Char) :=
  match skipBlanks input with
  | [] => .error .emptyExpression
  | c :: rest =>
    if c = ',' then .error (.located (c :: rest) (.unexpectedTerminator c))
    else if c = '|' then .error (.located (c :: rest) (.unexpectedCharacter c))
    else
      match operand (c :: rest) with
      | .error stop => .error stop
      | .ok (value, after) =>
        (filters multiple after).map fun reading ↦ (.operand value :: reading.1, reading.2)

/-- The fragments of a whole text, which may end in blanks and in nothing else. -/
def whole (multiple : Bool) (input : List Char) : Except Stop (List Fragment) :=
  match head multiple input with
  | .error stop => .error stop
  | .ok (fragments, []) => .ok fragments
  | .ok (fragments, found :: rest) =>
    if skipBlanks (found :: rest) = [] then .ok fragments
    else .error (.located (found :: rest) (.unexpectedTerminator found))

/-- The expression that a whole text denotes. -/
def expression (multiple : Bool) (input : List Char) : Except Stop Expression :=
  match whole multiple input with
  | .error stop => .error stop
  | .ok fragments =>
    match Expression.ofFragments? fragments with
    | some expression => .ok expression
    | none => .error .emptyExpression

/-- The number of bytes that the text takes in UTF-8. -/
def byteSize : List Char → Nat
  | [] => 0
  | c :: rest => c.utf8Size + byteSize rest

/-- The number of bytes before the part of the source that is left. -/
def offsetIn (source rest : List Char) : Nat :=
  byteSize source - byteSize rest

theorem byteSize_append (front rest : List Char) :
    byteSize (front ++ rest) = byteSize front + byteSize rest := by
  induction front with
  | nil => simp [byteSize]
  | cons c front ih => simp only [List.cons_append, byteSize, ih, Nat.add_assoc]

/-- What is left begins behind the bytes of what is before it. -/
theorem offsetIn_append (front rest : List Char) :
    offsetIn (front ++ rest) rest = byteSize front := by
  rw [offsetIn, byteSize_append, Nat.add_sub_cancel]

end Scan

/-- The expression that the source denotes, or the first fault in it. -/
def Expression.scan (options : Options) (source : String) : Except ScanError Expression :=
  match Scan.expression options.multipleArguments source.toList with
  | .ok expression => .ok expression
  | .error stop => .error (stop.map (Scan.offsetIn source.toList))

end Stencil
