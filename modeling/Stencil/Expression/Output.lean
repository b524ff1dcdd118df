import Stencil.Expression.NumberText
import Stencil.Expression.Scan

/-!
Reading into one output. All readers share one list of fragments, and each puts what it read at the
end of that list. An expression and the arguments of a filter are read in the same turns, one for an
operand, one for a comma and one for a bar (`Progress.turn`). At a bar, arguments end, while an
expression goes on with a filter; that filter has its arguments read into the same output, takes
them off the end again and puts out a fragment of its own instead (`Progress.splice`). A reader that
fails ends the whole reading, and the output is given up.

`Progress.scan` reads a source in this way.
-/

set_option autoImplicit false
set_option relaxedAutoImplicit false

namespace Stencil.Scan

open Text

/-- How far reading has come: the text that is left, and what has been put out. -/
structure Progress where
  left : List Char
  output : List Fragment

/-- The names of a path, the ones already read and those at the front of the text, and what follows
them. -/
def readPath (spare : Spare) (path : List String) (input : List Char) :
    Except Stop (List String × List Char) :=
  if leadingWord input = [] then
    match path, input with
    | [], found :: rest => .error (.located (found :: rest) (.unexpectedCharacter found))
    | [], [] => .error spare.noName
    | _ :: _, rest => .error (.located rest .emptySegment)
  else
    match hrest : afterWord input with
    | '.' :: rest =>
      have : rest.length < input.length := Lookup.length_lt_of_afterWord_eq_cons hrest
      readPath spare (path ++ [String.ofList (leadingWord input)]) rest
    | rest => .ok (path ++ [String.ofList (leadingWord input)], rest)
termination_by input.length

/-- A path segment and what follows it, as an equation to rewrite with. -/
theorem readPath_eq (spare : Spare) (path : List String) (input : List Char) :
    readPath spare path input =
      if leadingWord input = [] then
        match path, input with
        | [], found :: rest => .error (.located (found :: rest) (.unexpectedCharacter found))
        | [], [] => .error spare.noName
        | _ :: _, rest => .error (.located rest .emptySegment)
      else
        match afterWord input with
        | '.' :: rest => readPath spare (path ++ [String.ofList (leadingWord input)]) rest
        | rest => .ok (path ++ [String.ofList (leadingWord input)], rest) := by
  rw [readPath.eq_def]
  split
  · rfl
  · split <;> rename_i hrest
    · simp only [hrest]
    · split
      · rename_i rest heq
        exact absurd heq (hrest rest)
      · rfl

theorem readPath_length_le {spare : Spare} {path found : List String} {input rest : List Char}
    (h : readPath spare path input = .ok (found, rest)) : rest.length ≤ input.length := by
  fun_induction readPath spare path input with
  | case1 => cases h
  | case2 => cases h
  | case3 => cases h
  | case4 path input _ tail htail hlt ih => exact Nat.le_trans (ih h) (Nat.le_of_lt hlt)
  | case5 path input _ _ =>
    cases h
    exact Lookup.afterWord_length_le input

namespace Progress

/-- One more fragment put out, with the text that is left behind it. -/
def put (progress : Progress) (fragment : Fragment) (left : List Char) : Progress :=
  ⟨left, progress.output ++ [fragment]⟩

/-- What was put out from a place on, taken off as the arguments of a filter. -/
def splice (progress : Progress) (name : String) (start : Nat) : Progress :=
  ⟨progress.left, progress.output.take start ++
    [.filter ⟨name, (progress.output.drop start).filterMap Fragment.operand?⟩]⟩

/-! ### Operands -/

section Operands

variable (spare : Spare)

def number (progress : Progress) : Except Stop Progress :=
  (Number.readText spare progress.left).map fun reading ↦
    progress.put (.operand (.number reading.1)) reading.2

/-- A number must not run on. -/
def numberEnd (progress : Progress) : Except Stop Progress :=
  match Number.flawBefore? progress.left with
  | some flaw => .error (.located progress.left (.malformedNumber flaw))
  | none => .ok progress

def text (progress : Progress) : Except Stop Progress :=
  match progress.left with
  | [] => .error (.located [] .unterminatedText)
  | quote :: rest =>
    match Literal.read? quote rest with
    | some (value, after) => .ok (progress.put (.operand (.text (String.ofList value))) after)
    | none => .error (.located (quote :: rest) .unterminatedText)

def lookup (progress : Progress) : Except Stop Progress :=
  (readPath spare [] progress.left).map fun reading ↦
    progress.put (.operand (.lookup reading.1)) reading.2

/-- The operand that begins with the character. -/
def operand (c : Char) (progress : Progress) : Except Stop Progress :=
  if c.isDigit || c == '.' then (number spare progress).bind numberEnd
  else if Literal.isQuote c then text progress
  else lookup spare progress

end Operands

/-! ### Turns -/

/-- What comes of looking at the next character. -/
inductive Turn where
  /-- Something was read; an operand may be due next. -/
  | goesOn (expects : Bool) (progress : Progress)
  /-- There is a bar. -/
  | bar
  /-- The next character is left to others, or there is none. -/
  | ends
  | fails (stop : Stop)

variable (spare : Spare) (multiple : Bool)

/-- A turn in the arguments of the filter with the name, or in an expression if there is no name.
`expects` says that an operand is due. -/
def turn (name : Option String) (expects : Bool) (progress : Progress) : Turn :=
  match progress.left with
  | [] => .ends
  | c :: rest =>
    if c = ',' then
      if name.isSome = true ∧ multiple = true ∧ expects = false then
        .goesOn true ⟨skipBlanks rest, progress.output⟩
      else .ends
    else if isBlank c then .ends
    else if c = '|' then
      if name = none ∧ expects = true then
        .fails (.located (c :: rest) (.unexpectedCharacter c))
      else .bar
    else if expects then
      match operand spare c progress with
      | .ok after => .goesOn false after
      | .error stop => .fails stop
    else .fails (.located (c :: rest) (.unexpectedCharacter c))

/-- The end of arguments or of an expression, where no operand may be due any more. -/
def finish (name : Option String) (expects : Bool) (progress : Progress) :
    Except Stop Progress :=
  if expects then
    match name, progress.left with
    | some name, rest => .error (.located rest (.missingArgument name))
    | none, found :: rest => .error (.located (found :: rest) (.unexpectedTerminator found))
    | none, [] => .error .emptyExpression
  else .ok progress

/-! ### The next turn -/

theorem operand_length_le {spare : Spare} {c : Char} {progress after : Progress}
    (h : operand spare c progress = .ok after) : after.left.length ≤ progress.left.length := by
  unfold operand at h
  split at h
  · cases hread : Number.readText spare progress.left with
    | error stop => simp [number, hread, Except.map, Except.bind] at h
    | ok reading =>
      have hlength := Number.readText_length_le hread
      simp only [number, hread, Except.map, Except.bind, numberEnd] at h
      split at h
      · cases h
      · cases h
        exact hlength
  split at h
  · unfold text at h
    split at h
    · cases h
    · rename_i quote rest hleft
      split at h
      · rename_i value left hread
        cases h
        rw [hleft]
        exact Nat.le_succ_of_le (Literal.read?_length_le quote rest value left hread)
      · cases h
  · cases hread : readPath spare [] progress.left with
    | error stop => simp [lookup, hread, Except.map] at h
    | ok reading =>
      simp only [lookup, hread, Except.map, Except.ok.injEq] at h
      rw [← h]
      exact readPath_length_le hread

/-- What bounds the number of turns: characters, and whether an operand is due. -/
def remaining (expects : Bool) (progress : Progress) : Nat :=
  2 * progress.left.length + expects.toNat

/-- A turn that goes on comes nearer to the end: less text is left, or an operand is due no more. -/
theorem remaining_lt_of_turn {name : Option String} {expects next : Bool}
    {progress after : Progress}
    (h : turn spare multiple name expects progress = .goesOn next after) :
    after.remaining next < progress.remaining expects := by
  unfold turn at h
  split at h
  · cases h
  rename_i c rest hleft
  split at h
  · split at h
    · rename_i hcomma
      cases h
      have hskip := skipBlanks_length_le rest
      simp only [remaining, hleft, hcomma.2.2, List.length_cons, Bool.toNat_true,
        Bool.toNat_false]
      omega
    · cases h
  split at h
  · cases h
  split at h
  · split at h <;> cases h
  split at h
  · rename_i hexpects
    split at h
    · rename_i hread
      cases h
      have hlength := operand_length_le hread
      simp only [remaining, hexpects, Bool.toNat_true, Bool.toNat_false]
      omega
    · cases h
  · cases h

/-- A turn stops for a filter only at a bar. -/
theorem left_eq_of_turn {name : Option String} {expects : Bool} {progress : Progress}
    (h : turn spare multiple name expects progress = .bar) :
    ∃ rest, progress.left = '|' :: rest := by
  unfold turn at h
  split at h
  · cases h
  rename_i c rest hleft
  split at h
  · split at h <;> cases h
  split at h
  · cases h
  split at h
  · rename_i hbar
    exact ⟨rest, by rw [hleft, hbar]⟩
  split at h
  · split at h <;> cases h
  · cases h

/-! ### Arguments, filters and expressions -/

/-- Turns in the arguments of the filter, up to a bar or to the end. -/
def argumentTurns (name : String) (expects : Bool) (progress : Progress) :
    Except Stop Progress :=
  match hturn : turn spare multiple (some name) expects progress with
  | .goesOn next after =>
    have : after.remaining next < progress.remaining expects :=
      remaining_lt_of_turn spare multiple hturn
    argumentTurns name next after
  | .bar | .ends => finish (some name) expects progress
  | .fails stop => .error stop
termination_by progress.remaining expects

/-- The arguments of the filter, from behind its colon on. -/
def arguments (name : String) (progress : Progress) : Except Stop Progress :=
  argumentTurns spare multiple name true ⟨skipBlanks progress.left, progress.output⟩

/-- The filter at the bar. -/
def filter (progress : Progress) : Except Stop Progress :=
  let input := progress.left.tail
  let name := String.ofList (leadingWord input)
  if leadingWord input = [] then .error (.located input .missingFilterName)
  else
    match afterWord input with
    | ':' :: rest =>
      (arguments spare multiple name ⟨rest, progress.output⟩).map fun after ↦
        after.splice name progress.output.length
    | rest => .ok (progress.put (.filter ⟨name, []⟩) rest)

/-- Reading can finish only where no operand is due, and then leaves everything as it is. -/
theorem eq_of_finish {name : Option String} {expects : Bool} {progress after : Progress}
    (h : finish name expects progress = .ok after) : expects = false ∧ after = progress := by
  unfold finish at h
  split at h
  · split at h <;> cases h
  · rename_i hexpects
    cases h
    exact ⟨Bool.eq_false_iff.2 hexpects, rfl⟩

theorem left_length_le_of_remaining {expects next : Bool} {progress after : Progress}
    (h : after.remaining next < progress.remaining expects) :
    after.left.length ≤ progress.left.length := by
  have hdue := Bool.toNat_le expects
  unfold remaining at h
  omega

variable {spare multiple}

theorem argumentTurns_length_le {name : String} {expects : Bool} {progress after : Progress}
    (h : argumentTurns spare multiple name expects progress = .ok after) :
    after.left.length ≤ progress.left.length := by
  fun_induction argumentTurns spare multiple name expects progress with
  | case1 expects progress next turned _ hless ih =>
    exact Nat.le_trans (ih h) (left_length_le_of_remaining hless)
  | case2 expects progress _ =>
    obtain ⟨-, rfl⟩ := eq_of_finish h
    exact Nat.le_refl _
  | case3 expects progress _ =>
    obtain ⟨-, rfl⟩ := eq_of_finish h
    exact Nat.le_refl _
  | case4 => cases h

theorem filter_length_le {progress after : Progress}
    (h : filter spare multiple progress = .ok after) :
    after.left.length ≤ progress.left.tail.length := by
  have hword := Lookup.afterWord_length_le progress.left.tail
  unfold filter at h
  simp only at h
  split at h
  · cases h
  split at h
  · rename_i rest hrest
    have hlt := Lookup.length_lt_of_afterWord_eq_cons hrest
    cases hread : arguments spare multiple (String.ofList (leadingWord progress.left.tail))
        ⟨rest, progress.output⟩ with
    | error stop => simp [hread, Except.map] at h
    | ok read =>
      simp only [hread, Except.map, Except.ok.injEq] at h
      have hlength := argumentTurns_length_le hread
      have hskip := skipBlanks_length_le rest
      rw [← h]
      simp only [splice] at hlength ⊢
      omega
  · cases h
    exact hword

/-- Behind the filter at a bar there is less left. -/
theorem remaining_lt_of_filter {name : Option String} {expects : Bool} {progress after : Progress}
    (hturn : turn spare multiple name expects progress = .bar)
    (h : filter spare multiple progress = .ok after) :
    after.remaining expects < progress.remaining expects := by
  obtain ⟨rest, hleft⟩ := left_eq_of_turn spare multiple hturn
  have hlength := filter_length_le h
  simp only [remaining, hleft, List.tail_cons, List.length_cons] at hlength ⊢
  omega

variable (spare multiple)

/-- Turns in an expression, with the filters at its bars. -/
def expressionTurns (expects : Bool) (progress : Progress) : Except Stop Progress :=
  match hturn : turn spare multiple none expects progress with
  | .goesOn next after =>
    have : after.remaining next < progress.remaining expects :=
      remaining_lt_of_turn spare multiple hturn
    expressionTurns next after
  | .bar =>
    match hfilter : filter spare multiple progress with
    | .ok after =>
      have : after.remaining expects < progress.remaining expects :=
        remaining_lt_of_filter hturn hfilter
      expressionTurns expects after
    | .error stop => .error stop
  | .ends => finish none expects progress
  | .fails stop => .error stop
termination_by progress.remaining expects

/-- An expression, up to what does not belong to it. -/
def head (progress : Progress) : Except Stop Progress :=
  expressionTurns spare multiple true ⟨skipBlanks progress.left, progress.output⟩

/-- The expression that a whole text denotes. -/
def expression (input : List Char) : Except Stop Expression :=
  match head spare multiple ⟨input, []⟩ with
  | .error stop => .error stop
  | .ok progress =>
    match progress.left, skipBlanks progress.left with
    | found :: rest, _ :: _ => .error (.located (found :: rest) (.unexpectedTerminator found))
    | _, _ =>
      match progress.output.head?.bind Fragment.operand? with
      | some value => .ok ⟨value, progress.output.tail.filterMap Fragment.filter?⟩
      | none => .error spare.noOperand

/-- The expression that the source denotes, or the first fault in it. -/
def scan (options : Options) (source : String) : Except ScanError Expression :=
  (expression spare options.multipleArguments source.toList).mapError
    (Fault.map (offsetIn source.toList))

end Progress

end Stencil.Scan
