import Stencil.Expression.Output
import Stencil.Proofs.Expression.FaultPlace
import Stencil.Proofs.Expression.NumberText

/-!
What stands in the shared output. A turn puts out one operand where one is due and nothing where it
passes a comma (`Progress.turn_output`). So arguments put out operands only, at least one and no
more than one where commas do not part them (`Progress.argumentTurns_output`); taken off again they
are the arguments of one filter, and none of them is lost (`Progress.splice_eq`). An expression puts
out an operand and behind it filters only (`Progress.expressionTurns_output`). All of it stands
behind what was there before.

Reading into a shared output is reading: `Progress.arguments_eq`, `Progress.filter_eq` and
`Progress.head_eq` give what the readers of `Scan` give, put behind what is already there. As this
holds for any answers in reserve, none of them is ever given (`Progress.scan_eq`).
-/

set_option autoImplicit false
set_option relaxedAutoImplicit false

namespace Stencil.Scan

open Text

namespace Progress

variable {spare : Spare} {multiple : Bool} {progress after : Progress}

/-! ### What one turn puts out -/

theorem exists_put_of_number (h : number spare progress = .ok after) :
    ∃ value, after = progress.put (.operand (.number value)) after.left := by
  obtain ⟨reading, -, rfl⟩ := eq_ok_of_map_eq_ok h
  exact ⟨reading.1, rfl⟩

theorem exists_put_of_text (h : text progress = .ok after) :
    ∃ value, after = progress.put (.operand (.text value)) after.left := by
  unfold text at h
  split at h
  · cases h
  · split at h
    · rename_i value rest _
      cases h
      exact ⟨String.ofList value, rfl⟩
    · cases h

theorem exists_put_of_lookup (h : lookup spare progress = .ok after) :
    ∃ path, after = progress.put (.operand (.lookup path)) after.left := by
  obtain ⟨reading, -, rfl⟩ := eq_ok_of_map_eq_ok h
  exact ⟨reading.1, rfl⟩

theorem eq_of_numberEnd (h : numberEnd progress = .ok after) : after = progress := by
  unfold numberEnd at h
  split at h <;> cases h
  rfl

theorem exists_put_of_operand {c : Char} (h : operand spare c progress = .ok after) :
    ∃ value, after = progress.put (.operand value) after.left := by
  unfold operand at h
  split at h
  · cases hread : number spare progress with
    | error stop => simp [hread, Except.bind] at h
    | ok read =>
      rw [hread] at h
      obtain rfl := eq_of_numberEnd h
      obtain ⟨value, hvalue⟩ := exists_put_of_number hread
      exact ⟨.number value, hvalue⟩
  split at h
  · obtain ⟨value, hvalue⟩ := exists_put_of_text h
    exact ⟨.text value, hvalue⟩
  · obtain ⟨path, hpath⟩ := exists_put_of_lookup h
    exact ⟨.lookup path, hpath⟩

/-- A turn that goes on has put out the operand that was due, or else, between arguments, has passed
a comma behind which one is due. -/
theorem turn_output {name : Option String} {expects next : Bool}
    (h : turn spare multiple name expects progress = .goesOn next after) :
    (expects = true ∧ next = false ∧ ∃ value, after.output = progress.output ++ [.operand value]) ∨
      (name.isSome = true ∧ multiple = true ∧ expects = false ∧ next = true ∧
        after.output = progress.output) := by
  unfold turn at h
  split at h
  · cases h
  split at h
  · split at h
    · rename_i hcomma
      cases h
      exact Or.inr ⟨hcomma.1, hcomma.2.1, hcomma.2.2, rfl, rfl⟩
    · cases h
  split at h
  · cases h
  split at h
  · split at h <;> cases h
  split at h
  · rename_i hexpects
    split at h
    · rename_i hread
      cases h
      obtain ⟨value, hvalue⟩ := exists_put_of_operand hread
      exact Or.inl ⟨hexpects, rfl, value, by rw [hvalue]; rfl⟩
    · cases h
  · cases h

/-- In an expression, a bar is met only where no operand is due. -/
theorem eq_false_of_turn_bar {expects : Bool}
    (h : turn spare multiple none expects progress = .bar) : expects = false := by
  unfold turn at h
  split at h
  · cases h
  split at h
  · split at h <;> cases h
  split at h
  · cases h
  split at h
  · split at h
    · cases h
    · rename_i hexpects
      simpa using hexpects
  split at h
  · split at h <;> cases h
  · cases h

/-! ### What a run of turns puts out -/

/-- Arguments put out operands, at least the one that is due, and no others than that where commas
do not part them. -/
theorem argumentTurns_output {name : String} {expects : Bool}
    (h : argumentTurns spare multiple name expects progress = .ok after) :
    ∃ values : List Operand, after.output = progress.output ++ values.map .operand ∧
      (expects = true → values ≠ []) ∧ (multiple = false → values.length = expects.toNat) := by
  fun_induction argumentTurns spare multiple name expects progress with
  | case1 expects progress next turned hturn _ ih =>
    obtain ⟨values, houtput, hdue, hsingle⟩ := ih h
    rcases turn_output hturn with ⟨rfl, rfl, value, hvalue⟩ | ⟨-, rfl, rfl, rfl, hsame⟩
    · refine ⟨value :: values, ?_, fun _ ↦ List.cons_ne_nil _ _, fun hone ↦ ?_⟩
      · rw [houtput, hvalue, List.append_assoc]
        rfl
      · rw [List.length_cons, hsingle hone]
        rfl
    · refine ⟨values, by rw [houtput, hsame], fun hfalse ↦ ?_, fun hone ↦ ?_⟩
      · cases hfalse
      · cases hone
  | case2 expects progress _ =>
    obtain ⟨rfl, rfl⟩ := eq_of_finish h
    exact ⟨[], (List.append_nil _).symm, by rintro ⟨⟩, fun _ ↦ rfl⟩
  | case3 expects progress _ =>
    obtain ⟨rfl, rfl⟩ := eq_of_finish h
    exact ⟨[], (List.append_nil _).symm, by rintro ⟨⟩, fun _ ↦ rfl⟩
  | case4 => cases h

/-- What stands behind the place is taken off, and what stands before it is left. -/
theorem splice_append {output fragments : List Fragment} {left : List Char} (name : String) :
    splice ⟨left, output ++ fragments⟩ name output.length =
      ⟨left, output ++ [.filter ⟨name, fragments.filterMap Fragment.operand?⟩]⟩ := by
  simp only [splice, List.take_left, List.drop_left]

theorem filterMap_operand? (values : List Operand) :
    (values.map Fragment.operand).filterMap Fragment.operand? = values := by
  simp [List.filterMap_map, Function.comp_def]

/-- Operands that were put out from a place on become the arguments of the filter, all of them. -/
theorem splice_eq {output : List Fragment} {values : List Operand}
    (houtput : after.output = output ++ values.map .operand) (name : String) :
    after.splice name output.length = ⟨after.left, output ++ [.filter ⟨name, values⟩]⟩ := by
  obtain ⟨left, found⟩ := after
  obtain rfl : found = output ++ values.map .operand := houtput
  rw [splice_append, filterMap_operand?]

/-- Reading arguments puts out operands only, and a filter that is made of what was put out has all
of them. -/
theorem arguments_output {name : String} (h : arguments spare multiple name progress = .ok after) :
    ∃ values : List Operand, values ≠ [] ∧ (multiple = false → values.length = 1) ∧
      after.output = progress.output ++ values.map .operand ∧
      after.splice name progress.output.length =
        ⟨after.left, progress.output ++ [.filter ⟨name, values⟩]⟩ := by
  obtain ⟨values, houtput, hdue, hsingle⟩ := argumentTurns_output h
  exact ⟨values, hdue rfl, hsingle, houtput, splice_eq houtput name⟩

/-- Reading a filter puts out one filter, its arguments taken off again. -/
theorem filter_output (h : filter spare multiple progress = .ok after) :
    ∃ call, after.output = progress.output ++ [.filter call] := by
  unfold filter at h
  simp only at h
  split at h
  · cases h
  split at h
  · obtain ⟨read, hread, rfl⟩ := eq_ok_of_map_eq_ok h
    obtain ⟨values, -, -, -, hsplice⟩ := arguments_output hread
    exact ⟨_, congrArg output hsplice⟩
  · cases h
    exact ⟨_, rfl⟩

/-- An expression puts out the operand that is due, if one is, and then filters. -/
theorem expressionTurns_output {expects : Bool}
    (h : expressionTurns spare multiple expects progress = .ok after) :
    ∃ (values : List Operand) (calls : List FilterCall), values.length = expects.toNat ∧
      after.output = progress.output ++ (values.map .operand ++ calls.map .filter) := by
  fun_induction expressionTurns spare multiple expects progress with
  | case1 expects progress next turned hturn _ ih =>
    obtain ⟨values, calls, hlength, houtput⟩ := ih h
    rcases turn_output hturn with ⟨rfl, rfl, value, hvalue⟩ | ⟨hnone, -⟩
    · refine ⟨value :: values, calls, by rw [List.length_cons, hlength]; rfl, ?_⟩
      rw [houtput, hvalue, List.append_assoc]
      rfl
    · cases hnone
  | case2 expects progress hturn turned hfilter _ ih =>
    obtain rfl := eq_false_of_turn_bar hturn
    obtain ⟨values, calls, hlength, houtput⟩ := ih h
    obtain ⟨call, hcall⟩ := filter_output hfilter
    obtain rfl : values = [] := List.eq_nil_of_length_eq_zero hlength
    refine ⟨[], call :: calls, rfl, ?_⟩
    rw [houtput, hcall, List.append_assoc]
    rfl
  | case3 => cases h
  | case4 expects progress _ =>
    obtain ⟨rfl, rfl⟩ := eq_of_finish h
    exact ⟨[], [], rfl, (List.append_nil _).symm⟩
  | case5 => cases h

/-- Reading an expression puts out the fragments of one. -/
theorem head_output (h : head spare multiple progress = .ok after) :
    ∃ expression : Expression, after.output = progress.output ++ expression.fragments := by
  obtain ⟨values, calls, hlength, houtput⟩ := expressionTurns_output h
  obtain ⟨value, rfl⟩ := List.length_eq_one_iff.1 hlength
  exact ⟨⟨value, calls⟩, houtput⟩

/-- What a whole text is read as has as its fragments all that was put out. -/
theorem fragments_of_expression {input : List Char} {result : Expression}
    (h : expression spare multiple input = .ok result) :
    ∃ after, head spare multiple ⟨input, []⟩ = .ok after ∧ after.output = result.fragments := by
  unfold expression at h
  split at h
  · cases h
  rename_i after hhead
  obtain ⟨found, hfound⟩ := head_output hhead
  rw [List.nil_append] at hfound
  refine ⟨after, hhead, ?_⟩
  split at h
  · cases h
  · simp only [hfound, Expression.fragments, List.head?_cons, Option.bind_some,
      Fragment.operand?_operand, List.tail_cons, Fragment.filterMap_filter?_map,
      Except.ok.injEq] at h
    rw [hfound, ← h]

/-! ### Reading into an output is reading -/

theorem readPath_of_not_point {input : List Char} (hne : leadingWord input ≠ [])
    (hpoint : (afterWord input).head? ≠ some '.') (path : List String) :
    readPath spare path input =
      .ok (path ++ [String.ofList (leadingWord input)], afterWord input) := by
  rw [readPath_eq, if_neg hne]
  split
  · rename_i rest hrest
    rw [hrest] at hpoint
    exact absurd rfl hpoint
  · rfl

/-- Behind the first name, a path is read as names are. -/
theorem readPath_behind {path : List String} (hpath : path ≠ []) (input : List Char) :
    readPath spare path input =
      (Lookup.readSegments input).map fun reading ↦ (path ++ reading.1, reading.2) := by
  fun_induction Lookup.readSegments input generalizing path with
  | case1 input hnil =>
    obtain ⟨first, others, rfl⟩ := List.exists_cons_of_ne_nil hpath
    rw [readPath_eq, if_pos hnil]
    rfl
  | case2 input hne rest hrest _ ih =>
    rw [readPath_eq, if_neg hne, hrest]
    simp only [ih (List.append_ne_nil_of_right_ne_nil path (List.cons_ne_nil _ _))]
    cases Lookup.readSegments rest with
    | error stop => rfl
    | ok reading => simp [Except.map]
  | case3 input hne hpoint =>
    have hhead : (afterWord input).head? ≠ some '.' := by
      intro heq
      obtain ⟨rest, hrest⟩ := List.head?_eq_some_iff.1 heq
      exact hpoint rest hrest
    exact readPath_of_not_point hne hhead path

/-- A path is read as lookups are. -/
theorem readPath_cons (spare : Spare) (c : Char) (tail : List Char) :
    readPath spare [] (c :: tail) = Lookup.read (c :: tail) := by
  rw [Lookup.read, List.head?_cons]
  by_cases hword : isWord c = true
  · have hne : leadingWord (c :: tail) ≠ [] := by
      rw [leadingWord, List.takeWhile_cons_of_pos hword]
      exact List.cons_ne_nil _ _
    simp only [if_pos hword]
    by_cases hpoint : (afterWord (c :: tail)).head? = some '.'
    · obtain ⟨rest, hrest⟩ := List.head?_eq_some_iff.1 hpoint
      have hbehind : [] ++ [String.ofList (leadingWord (c :: tail))] ≠ [] := List.cons_ne_nil _ _
      rw [readPath_eq, Lookup.readSegments_eq, if_neg hne, if_neg hne, hrest]
      exact readPath_behind hbehind rest
    · rw [readPath_of_not_point hne hpoint, Lookup.readSegments_of_not_point hne hpoint]
      rfl
  · have hnil : leadingWord (c :: tail) = [] := by
      rw [leadingWord, List.takeWhile_cons_of_neg hword]
    rw [readPath_eq]
    simp only [if_pos hnil, if_neg hword]

/-- An operand is read as without an output, and put out. -/
theorem operand_eq (spare : Spare) (c : Char) (tail : List Char) (output : List Fragment) :
    operand spare c ⟨c :: tail, output⟩ =
      (Scan.operand (c :: tail)).map fun reading ↦
        ⟨reading.2, output ++ [.operand reading.1]⟩ := by
  unfold operand Scan.operand
  by_cases hstart : (c.isDigit || c == '.') = true
  · have hread : number spare ⟨c :: tail, output⟩ =
        (Number.read (c :: tail)).map fun reading ↦
          ⟨reading.2, output ++ [.operand (.number reading.1)]⟩ := by
      rw [Bool.or_eq_true, beq_iff_eq] at hstart
      rw [number, Number.readText_eq spare hstart]
      rfl
    simp only [if_pos hstart, hread, Number.readWhole]
    cases Number.read (c :: tail) with
    | error stop => rfl
    | ok reading =>
      simp only [Except.map, Except.bind, numberEnd]
      cases Number.flawBefore? reading.2 <;> rfl
  simp only [if_neg hstart]
  by_cases hquote : Literal.isQuote c = true
  · simp only [if_pos hquote, text]
    cases Literal.read? c tail <;> rfl
  · simp only [if_neg hquote, lookup, readPath_cons]
    cases Lookup.read (c :: tail) <;> rfl

/-! ### Turns in arguments -/

theorem isBlank_bar : isBlank '|' = false := by decide

variable {name : Option String} {c : Char} {tail : List Char} {output : List Fragment}

/-- Where an operand is due and none of the characters that part or end something comes next, the
turn reads the operand. -/
theorem turn_operand (hblank : isBlank c = false) (hcomma : c ≠ ',') (hbar : c ≠ '|') :
    turn spare multiple name true ⟨c :: tail, output⟩ =
      match Scan.operand (c :: tail) with
      | .ok (value, rest) => .goesOn false ⟨rest, output ++ [.operand value]⟩
      | .error stop => .fails stop := by
  simp only [turn, if_neg hcomma, hblank, Bool.false_eq_true, if_false, if_neg hbar, if_true,
    operand_eq]
  cases Scan.operand (c :: tail) <;> rfl

/-- One turn and the others behind it, as an equation to rewrite with. -/
theorem argumentTurns_eq (name : String) (expects : Bool) (progress : Progress) :
    argumentTurns spare multiple name expects progress =
      match turn spare multiple (some name) expects progress with
      | .goesOn next after => argumentTurns spare multiple name next after
      | .bar | .ends => finish (some name) expects progress
      | .fails stop => .error stop := by
  rw [argumentTurns.eq_def]
  split <;> rename_i hturn <;> simp only [hturn]

theorem argumentTurns_missing {rest : List Char} (hrest : rest.head? ∈ [none, some ',', some '|'])
    (name : String) (output : List Fragment) :
    argumentTurns spare multiple name true ⟨rest, output⟩ =
      .error (.located rest (.missingArgument name)) := by
  rw [argumentTurns_eq]
  cases rest with
  | nil => rfl
  | cons c tail =>
    simp only [List.head?_cons, List.mem_cons, reduceCtorEq, Option.some.injEq, List.not_mem_nil,
      or_false, false_or] at hrest
    rcases hrest with rfl | rfl
    · simp [turn, finish]
    · simp [turn, finish, isBlank_bar]

theorem argumentTurns_operand (hblank : isBlank c = false) (hcomma : c ≠ ',') (hbar : c ≠ '|')
    (name : String) :
    argumentTurns spare multiple name true ⟨c :: tail, output⟩ =
      match Scan.operand (c :: tail) with
      | .ok (value, rest) =>
        argumentTurns spare multiple name false ⟨rest, output ++ [.operand value]⟩
      | .error stop => .error stop := by
  rw [argumentTurns_eq, turn_operand hblank hcomma hbar]
  cases Scan.operand (c :: tail) <;> rfl

/-- Behind an argument comes a comma, or else the arguments have to end. -/
theorem argumentTurns_behind (name : String) (rest : List Char) (output : List Fragment) :
    argumentTurns spare multiple name false ⟨rest, output⟩ =
      match rest with
      | [] => .ok ⟨[], output⟩
      | c :: tail =>
        if c = ',' ∧ multiple = true then
          argumentTurns spare multiple name true ⟨skipBlanks tail, output⟩
        else if c = ',' ∨ c = '|' ∨ isBlank c = true then .ok ⟨c :: tail, output⟩
        else .error (.located (c :: tail) (.unexpectedCharacter c)) := by
  rw [argumentTurns_eq]
  cases rest with
  | nil => rfl
  | cons c tail =>
    by_cases hcomma : c = ','
    · by_cases hmultiple : multiple = true <;> simp [turn, finish, hcomma, hmultiple]
    · by_cases hblank : isBlank c = true
      · simp [turn, finish, hcomma, hblank]
      · by_cases hbar : c = '|' <;> simp [turn, finish, hcomma, hblank, hbar, isBlank_bar]

/-- Arguments are read as without an output, and put out behind what was there. -/
theorem arguments_eq (name : String) (progress : Progress) :
    arguments spare multiple name progress =
      (Scan.arguments multiple name progress.left).map fun reading ↦
        ⟨reading.2, progress.output ++ reading.1⟩ := by
  obtain ⟨input, output⟩ := progress
  simp only [arguments]
  have hstart {input : List Char}
      (hdue : ¬(skipBlanks input).head? ∈ [none, some ',', some '|']) (output : List Fragment) :
      argumentTurns spare multiple name true ⟨skipBlanks input, output⟩ =
        match Scan.operand (skipBlanks input) with
        | .ok (value, rest) =>
          argumentTurns spare multiple name false ⟨rest, output ++ [.operand value]⟩
        | .error stop => .error stop := by
    cases hskip : skipBlanks input with
    | nil => simp [hskip] at hdue
    | cons c tail =>
      simp only [hskip, List.head?_cons, List.mem_cons, reduceCtorEq, Option.some.injEq,
        List.not_mem_nil, or_false, false_or, not_or] at hdue
      exact argumentTurns_operand (leading_append_cons hskip).2 hdue.1 hdue.2 name
  fun_induction Scan.arguments multiple name input generalizing output with
  | case1 input hmissing => exact argumentTurns_missing hmissing name output
  | case2 input hdue stop hread => rw [hstart hdue, hread]; rfl
  | case3 input hdue value hread =>
    rw [hstart hdue, hread]
    simp only [argumentTurns_behind]
    rfl
  | case4 input hdue value c rest hread hcomma hlt ih =>
    rw [hstart hdue, hread]
    simp only [argumentTurns_behind, if_pos hcomma, ih]
    cases Scan.arguments multiple name rest with
    | error stop => rfl
    | ok reading => simp [Except.map]
  | case5 input hdue value c rest hread hcomma hend =>
    rw [hstart hdue, hread]
    simp only [argumentTurns_behind, if_neg hcomma, if_pos hend]
    rfl
  | case6 input hdue value c rest hread hcomma hend =>
    rw [hstart hdue, hread]
    simp only [argumentTurns_behind, if_neg hcomma, if_neg hend]
    rfl

theorem filter_put_of_not_colon {progress : Progress} (hne : leadingWord progress.left.tail ≠ [])
    (hcolon : (afterWord progress.left.tail).head? ≠ some ':') :
    filter spare multiple progress =
      .ok (progress.put (.filter ⟨String.ofList (leadingWord progress.left.tail), []⟩)
        (afterWord progress.left.tail)) := by
  simp only [filter, if_neg hne]
  split
  · rename_i rest hrest
    rw [hrest] at hcolon
    exact absurd rfl hcolon
  · rfl

/-- A filter is read as without an output, and put out. -/
theorem filter_eq (progress : Progress) :
    filter spare multiple progress =
      (Scan.filter multiple progress.left.tail).map fun reading ↦
        progress.put reading.1 reading.2 := by
  by_cases hnil : leadingWord progress.left.tail = []
  · simp only [filter, Scan.filter, if_pos hnil]
    rfl
  by_cases hcolon : (afterWord progress.left.tail).head? = some ':'
  · obtain ⟨rest, hrest⟩ := List.head?_eq_some_iff.1 hcolon
    rw [filter_of_colon hnil hrest]
    simp only [filter, if_neg hnil, hrest, arguments_eq]
    cases Scan.arguments multiple (String.ofList (leadingWord progress.left.tail)) rest with
    | error stop => rfl
    | ok reading =>
      simp only [Except.map, splice_append]
      rfl
  · rw [filter_put_of_not_colon hnil hcolon, filter_of_not_colon hnil hcolon]
    rfl

/-! ### Turns in expressions -/

/-- One turn or one filter and the turns behind it, as an equation to rewrite with. -/
theorem expressionTurns_eq (expects : Bool) (progress : Progress) :
    expressionTurns spare multiple expects progress =
      match turn spare multiple none expects progress with
      | .goesOn next after => expressionTurns spare multiple next after
      | .bar =>
        match filter spare multiple progress with
        | .ok after => expressionTurns spare multiple expects after
        | .error stop => .error stop
      | .ends => finish none expects progress
      | .fails stop => .error stop := by
  rw [expressionTurns.eq_def]
  split <;> rename_i hturn
  · simp only [hturn]
  · simp only [hturn]
    split <;> rename_i hfilter <;> simp only [hfilter]
  · simp only [hturn]
  · simp only [hturn]

/-- Behind an operand or a filter comes a filter, or else the expression has to end. -/
theorem expressionTurns_behind (rest : List Char) (output : List Fragment) :
    expressionTurns spare multiple false ⟨rest, output⟩ =
      match rest with
      | [] => .ok ⟨[], output⟩
      | c :: tail =>
        if c = '|' then
          match Scan.filter multiple tail with
          | .ok (fragment, after) =>
            expressionTurns spare multiple false ⟨after, output ++ [fragment]⟩
          | .error stop => .error stop
        else if c = ',' ∨ isBlank c = true then .ok ⟨c :: tail, output⟩
        else .error (.located (c :: tail) (.unexpectedCharacter c)) := by
  rw [expressionTurns_eq]
  cases rest with
  | nil => rfl
  | cons c tail =>
    by_cases hbar : c = '|'
    · have hturn : turn spare multiple none false ⟨c :: tail, output⟩ = .bar := by
        simp [turn, hbar, isBlank_bar]
      simp only [hturn, filter_eq, List.tail_cons, if_pos hbar]
      cases Scan.filter multiple tail <;> rfl
    · by_cases hcomma : c = ','
      · simp [turn, finish, hcomma]
      · by_cases hblank : isBlank c = true <;> simp [turn, finish, hcomma, hblank, hbar]

/-- Behind the operand of an expression, filters are read as without an output. -/
theorem expressionTurns_filters (input : List Char) (output : List Fragment) :
    expressionTurns spare multiple false ⟨input, output⟩ =
      (Scan.filters multiple input).map fun reading ↦ ⟨reading.2, output ++ reading.1⟩ := by
  fun_induction Scan.filters multiple input generalizing output with
  | case1 => rw [expressionTurns_behind]; simp [Except.map]
  | case2 tail stop hread => rw [expressionTurns_behind]; simp [hread, Except.map]
  | case3 tail fragment after hread _ ih =>
    rw [expressionTurns_behind]
    simp only [if_true, hread, ih]
    cases Scan.filters multiple after with
    | error stop => rfl
    | ok reading => simp [Except.map]
  | case4 c tail hbar hend =>
    rw [expressionTurns_behind]
    simp [hbar, hend, Except.map]
  | case5 c tail hbar hend =>
    rw [expressionTurns_behind]
    simp only [if_neg hbar, if_neg hend]
    rfl

/-- An expression is read as without an output, and put out behind what was there. -/
theorem head_eq (progress : Progress) :
    head spare multiple progress =
      (Scan.head multiple progress.left).map fun reading ↦
        ⟨reading.2, progress.output ++ reading.1⟩ := by
  obtain ⟨input, output⟩ := progress
  simp only [head, Scan.head]
  cases hskip : skipBlanks input with
  | nil => rw [expressionTurns_eq]; rfl
  | cons c tail =>
    have hblank := (leading_append_cons hskip).2
    by_cases hcomma : c = ','
    · rw [expressionTurns_eq]
      simp [turn, finish, hcomma, Except.map]
    by_cases hbar : c = '|'
    · rw [expressionTurns_eq]
      simp [turn, hbar, isBlank_bar, Except.map]
    · rw [expressionTurns_eq, turn_operand hblank hcomma hbar]
      simp only [if_neg hcomma, if_neg hbar]
      cases Scan.operand (c :: tail) with
      | error stop => rfl
      | ok reading =>
        simp only [expressionTurns_filters]
        cases Scan.filters multiple reading.2 with
        | error stop => rfl
        | ok more => simp [Except.map]

/-- A whole text is read the same into an output, whatever answers are held in reserve: what was put
out begins with an operand. -/
theorem expression_eq (spare : Spare) (multiple : Bool) (input : List Char) :
    expression spare multiple input = Scan.expression multiple input := by
  cases hhead : Scan.head multiple input with
  | error stop => simp [expression, head_eq, Scan.expression, whole, hhead, Except.map]
  | ok reading =>
    obtain ⟨fragments, rest⟩ := reading
    obtain ⟨-, form, forms, -, rfl, -⟩ := exists_forms_of_head hhead
    cases rest with
    | nil => simp [expression, head_eq, Scan.expression, whole, hhead, Except.map,
        Expression.ofFragments?]
    | cons found rest =>
      cases hskip : skipBlanks (found :: rest) <;>
        simp [expression, head_eq, Scan.expression, whole, hhead, Except.map, hskip,
          Expression.ofFragments?]

/-- A source denotes what it denotes when it is read without an output. -/
theorem scan_eq (spare : Spare) (options : Options) (source : String) :
    scan spare options source = Expression.scan options source := by
  rw [scan, Expression.scan, expression_eq]
  cases Scan.expression options.multipleArguments source.toList <;> rfl

/-! ### The use of the output -/

/-- The output is used as it is meant to be, whatever answers are held in reserve. Every reader
leaves alone what was there before; what it puts out is one fragment, or operands only where it
reads arguments, or an operand and then filters where it reads an expression. Nothing that was put
out is lost in a filter or in the expression, and the answers in reserve are not given. -/
structure KeepsOutput (spare : Spare) (options : Options) : Prop where
  number_output : ∀ progress after, number spare progress = .ok after →
    ∃ value, after.output = progress.output ++ [.operand (.number value)]
  text_output : ∀ progress after, text progress = .ok after →
    ∃ value, after.output = progress.output ++ [.operand (.text value)]
  lookup_output : ∀ progress after, lookup spare progress = .ok after →
    ∃ path, after.output = progress.output ++ [.operand (.lookup path)]
  filter_output : ∀ progress after, filter spare options.multipleArguments progress = .ok after →
    ∃ call, after.output = progress.output ++ [.filter call]
  /-- The operands that a filter finds behind its place are its arguments, all of them. -/
  arguments_output : ∀ name progress after,
    arguments spare options.multipleArguments name progress = .ok after →
      ∃ values : List Operand, values ≠ [] ∧
        (options.multipleArguments = false → values.length = 1) ∧
        after.output = progress.output ++ values.map .operand ∧
        after.splice name progress.output.length =
          ⟨after.left, progress.output ++ [.filter ⟨name, values⟩]⟩
  head_output : ∀ input after, head spare options.multipleArguments ⟨input, []⟩ = .ok after →
    ∃ (value : Operand) (calls : List FilterCall),
      after.output = .operand value :: calls.map .filter
  /-- The fragments of what a source denotes are all that was put out for it. -/
  fragments_eq : ∀ source expression, scan spare options source = .ok expression →
    ∃ after, head spare options.multipleArguments ⟨source.toList, []⟩ = .ok after ∧
      after.output = expression.fragments
  scan_eq : ∀ source, scan spare options source = Expression.scan options source

/-- The readers keep to their output, under all options and with any answers in reserve. -/
theorem keepsOutput (spare : Spare) (options : Options) : KeepsOutput spare options where
  number_output progress after h := by
    obtain ⟨value, hvalue⟩ := exists_put_of_number h
    exact ⟨value, congrArg output hvalue⟩
  text_output progress after h := by
    obtain ⟨value, hvalue⟩ := exists_put_of_text h
    exact ⟨value, congrArg output hvalue⟩
  lookup_output progress after h := by
    obtain ⟨path, hpath⟩ := exists_put_of_lookup h
    exact ⟨path, congrArg output hpath⟩
  filter_output progress after := filter_output
  arguments_output name progress after := arguments_output
  head_output input after h := by
    obtain ⟨expression, houtput⟩ := head_output h
    exact ⟨expression.operand, expression.filters, houtput⟩
  fragments_eq source result h := by
    rw [scan] at h
    cases hread : expression spare options.multipleArguments source.toList with
    | error stop => simp [hread, Except.mapError] at h
    | ok found =>
      obtain rfl : found = result := by simpa [hread, Except.mapError] using h
      exact fragments_of_expression hread
  scan_eq := scan_eq spare options

end Progress

end Stencil.Scan
