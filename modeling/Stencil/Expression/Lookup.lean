import Stencil.Expression.Fault
import Stencil.Text.Word

/-!
Lookups, as they are written and as they are read: names parted by points. A point always has a
name on both sides of it.
-/

set_option autoImplicit false
set_option relaxedAutoImplicit false

namespace Stencil.Lookup

open Text

theorem afterWord_length_le (text : List Char) : (afterWord text).length ≤ text.length :=
  (List.dropWhile_sublist isWord).length_le

/-- Behind a character that follows a word there is less left than there was. -/
theorem length_lt_of_afterWord_eq_cons {text rest : List Char} {c : Char}
    (h : afterWord text = c :: rest) : rest.length < text.length := by
  have hlength := afterWord_length_le text
  rw [h, List.length_cons] at hlength
  omega

/-- The names at the front of the text, the first one included, and what follows them. -/
def readSegments (input : List Char) : Except Stop (List String × List Char) :=
  if leadingWord input = [] then .error (.located input .emptySegment)
  else
    match hrest : afterWord input with
    | '.' :: rest =>
      have : rest.length < input.length := length_lt_of_afterWord_eq_cons hrest
      (readSegments rest).map fun reading ↦
        (String.ofList (leadingWord input) :: reading.1, reading.2)
    | rest => .ok ([String.ofList (leadingWord input)], rest)
termination_by input.length

/-- One segment, and the others behind a point, as an equation to rewrite with. -/
theorem readSegments_eq (input : List Char) :
    readSegments input =
      if leadingWord input = [] then .error (.located input .emptySegment)
      else
        match afterWord input with
        | '.' :: rest =>
          (readSegments rest).map fun reading ↦
            (String.ofList (leadingWord input) :: reading.1, reading.2)
        | rest => .ok ([String.ofList (leadingWord input)], rest) := by
  rw [readSegments]
  split
  · rfl
  · split
    · rename_i hrest
      simp only [hrest]
    · split
      · rename_i hnone _ rest hrest
        exact (hnone rest hrest).elim
      · rfl

/-- The lookup at the front of the text, and what follows it. -/
def read (input : List Char) : Except Stop (List String × List Char) :=
  match input.head? with
  | some found =>
    if isWord found then readSegments input
    else .error (.located input (.unexpectedCharacter found))
  | none => readSegments input

/-- The names of a path with a point between each two. -/
def spell (path : List String) : List Char :=
  List.intercalate ['.'] (path.map String.toList)

theorem readSegments_length_le (input rest : List Char) (path : List String)
    (h : readSegments input = .ok (path, rest)) : rest.length ≤ input.length := by
  fun_induction readSegments input generalizing rest path with
  | case1 => cases h
  | case2 input _ tail htail _ ih =>
    cases hread : readSegments tail with
    | error stop => simp [hread, Except.map] at h
    | ok reading =>
      simp only [hread, Except.map, Except.ok.injEq, Prod.mk.injEq] at h
      have := ih reading.2 reading.1 hread
      have := length_lt_of_afterWord_eq_cons htail
      rw [← h.2]
      omega
  | case3 input _ _ =>
    cases h
    exact afterWord_length_le input

theorem read_length_le (input rest : List Char) (path : List String)
    (h : read input = .ok (path, rest)) : rest.length ≤ input.length := by
  unfold read at h
  split at h
  · split at h
    · exact readSegments_length_le input rest path h
    · cases h
  · exact readSegments_length_le input rest path h

end Stencil.Lookup
