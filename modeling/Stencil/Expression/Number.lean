import Stencil.Expression.Basic
import Stencil.Expression.Fault
import Stencil.Binary64.Shortest
import Stencil.Text.Word

/-!
Number literals, as they are written and as they are read. A literal is a run of digits with at
most one point. With a point it is a decimal, and either side of the point may be empty; without
one it is an integer and has to be below `2 ^ 63`. A literal must not run on into a further point,
a letter, a digit or an underscore. Decimals are written with a point in every case, so that they
are read as decimals again.
-/

set_option autoImplicit false
set_option relaxedAutoImplicit false

namespace Stencil.Number

open Text

/-- The greatest integer, `2 ^ 63 - 1`. -/
abbrev greatest : Nat := 0x7fffffffffffffff

/-- The number at the front of the text, and what follows it. -/
def read (input : List Char) : Except Stop (Number × List Char) :=
  match afterDigits input with
  | '.' :: rest =>
    match Binary64.ofDecimal (leadingDigits input) (leadingDigits rest) with
    | .infinite _ => .error (.located input (.malformedNumber .outOfRange))
    | value => .ok (.decimal value, afterDigits rest)
  | rest =>
    if Nat.ofDigitChars 10 (leadingDigits input) 0 ≤ greatest then
      .ok (.integer (Int64.ofNat (Nat.ofDigitChars 10 (leadingDigits input) 0)), rest)
    else .error (.located input (.malformedNumber .tooLarge))

/-- How the character after a number spoils it, if it does. -/
def flawBefore? : List Char → Option NumberFlaw
  | c :: _ => if c = '.' then some .secondPoint else if isWord c then some (.unexpected c) else none
  | [] => none

/-- The number at the front of the text, which has to end there. -/
def readWhole (input : List Char) : Except Stop (Number × List Char) :=
  match read input with
  | .error stop => .error stop
  | .ok (value, rest) =>
    match flawBefore? rest with
    | some flaw => .error (.located rest (.malformedNumber flaw))
    | none => .ok (value, rest)

/-- The decimal digits of an integer, behind a minus sign where it is negative. -/
def spellInteger (value : Int) : List Char :=
  (if value < 0 then ['-'] else []) ++ Nat.toDigits 10 value.natAbs

/-- The text of a decimal, with a point even where the value is whole. -/
def spellDecimal (value : Binary64) : List Char :=
  if '.' ∈ value.spell then value.spell else value.spell ++ ['.', '0']

/-- The literal that a number is displayed as. -/
def spell : Number → List Char
  | integer value => spellInteger value.toInt
  | decimal value => spellDecimal value

theorem read_length_le (input rest : List Char) (value : Number)
    (h : read input = .ok (value, rest)) : rest.length ≤ input.length := by
  have hdigits (text : List Char) : (afterDigits text).length ≤ text.length :=
    (List.dropWhile_sublist Char.isDigit).length_le
  have hinput := hdigits input
  unfold read at h
  split at h
  · rename_i tail htail
    have htailDigits := hdigits tail
    rw [htail, List.length_cons] at hinput
    split at h
    · cases h
    · cases h
      omega
  · split at h
    · cases h
      exact hinput
    · cases h

theorem readWhole_length_le (input rest : List Char) (value : Number)
    (h : readWhole input = .ok (value, rest)) : rest.length ≤ input.length := by
  unfold readWhole at h
  split at h
  · cases h
  · rename_i hread
    split at h
    · cases h
    · cases h
      exact read_length_le input rest value hread

end Stencil.Number
