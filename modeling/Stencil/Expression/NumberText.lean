import Stencil.Expression.Number
import Stencil.Value.Data

/-!
Numbers by way of their text. The characters of a literal, digits and at most one point, are put
into a text of their own, which then has to spell an integer or a double. What spells a number goes
beyond literals: there may be a sign and an exponent, and infinity and the value that is not a
number have names. An integer is computed digit by digit, in 64 bits all the time. A decimal has to
have a digit somewhere, and therefore a literal that begins with a point gets a zero before it.

A text that comes from a literal can be spelled wrongly in one way only: an integer is too large.
For the other ways, and for more cases that no source leads to, reading has answers in reserve
(`Spare`).
-/

set_option autoImplicit false
set_option relaxedAutoImplicit false

namespace Stencil

open Text

/-! ### Doubles -/

namespace Binary64

/-- What follows the digits of a decimal: nothing, or an exponent behind `e` or `E`. -/
def exponent? : List Char → Option Int
  | [] => some 0
  | mark :: digits => if mark = 'e' ∨ mark = 'E' then Numeral.exponent? digits else none

/-- The digits behind a point, if there is one, and what follows them. -/
def splitFraction : List Char → List Char × List Char
  | '.' :: rest => (leadingDigits rest, afterDigits rest)
  | rest => ([], rest)

/-- The double that digits and an exponent behind them spell. There has to be a digit. -/
def ofParts? (negative : Bool) (whole fraction rest : List Char) : Option Binary64 :=
  if whole ++ fraction = [] then none
  else (exponent? rest).map fun exponent ↦
    let power : Int := exponent - fraction.length
    ofRatio negative (Nat.ofDigitChars 10 (whole ++ fraction) 0 * tenPower power.toNat)
      (tenPower (-power).toNat)

/-- The double that the text spells without a sign. -/
def ofUnsigned? (negative : Bool) (text : List Char) : Option Binary64 :=
  let letters := text.map Char.toLower
  if letters = ['i', 'n', 'f'] ∨ letters = ['i', 'n', 'f', 'i', 'n', 'i', 't', 'y'] then
    some (.infinite negative)
  else if letters = ['n', 'a', 'n'] then some .nan
  else
    let (fraction, rest) := splitFraction (afterDigits text)
    ofParts? negative (leadingDigits text) fraction rest

/-- The double that the text spells. -/
def ofText? : List Char → Option Binary64
  | '+' :: rest => ofUnsigned? false rest
  | '-' :: rest => ofUnsigned? true rest
  | rest => ofUnsigned? false rest

end Binary64

/-! ### Integers -/

/-- Why a text does not spell an integer of 64 bits. -/
inductive IntegerFlaw where
  | empty
  | invalidDigit
  | tooLarge
  | tooSmall
deriving DecidableEq

namespace Number

/-- The integer with one more digit behind it, where 64 bits can hold it. -/
def appendDigit (negative : Bool) (amount : Int64) (c : Char) : Except IntegerFlaw Int64 :=
  let digit : Int := c.toNat - '0'.toNat
  let next := 10 * amount.toInt + (if negative then -digit else digit)
  if c.isDigit = false then .error .invalidDigit
  else if (greatest : Int) < next then .error .tooLarge
  else if next < -(greatest : Int) - 1 then .error .tooSmall
  else .ok (Int64.ofInt next)

/-- The integer that the text spells. -/
def integerOfText : List Char → Except IntegerFlaw Int64
  | [] => .error .empty
  | ['+'] | ['-'] => .error .invalidDigit
  | '+' :: digits => digits.foldlM (appendDigit false) 0
  | '-' :: digits => digits.foldlM (appendDigit true) 0
  | digits => digits.foldlM (appendDigit false) 0

end Number

/-! ### Literals -/

/-- Answers for cases that reading does not come to, whatever the source is. -/
structure Spare where
  /-- The text of a literal with a point does not spell a double. -/
  notDecimal : Stop
  /-- The text of a literal without a point does not spell an integer, which would not be too large
  either. -/
  notInteger : IntegerFlaw → Stop
  /-- The source ends where the first name of a lookup is due. -/
  noName : Stop
  /-- What was put out for an expression does not begin with an operand. -/
  noOperand : Stop

namespace Number

/-- Moves the characters of a literal behind the text, digits and the first point, and says whether
there was a point among them and what is left. -/
def gather (text : List Char) (decimal : Bool) : List Char → List Char × Bool × List Char
  | [] => (text, decimal, [])
  | c :: rest =>
    if c = '.' then
      if decimal then (text, decimal, c :: rest) else gather (text ++ [c]) true rest
    else if c.isDigit then gather (text ++ [c]) decimal rest
    else (text, decimal, c :: rest)

/-- The number at the front of the input by way of its text, and what follows it. -/
def readText (spare : Spare) (input : List Char) : Except Stop (Number × List Char) :=
  match gather (if input.head? = some '.' then ['0'] else []) false input with
  | (text, true, rest) =>
    match Binary64.ofText? text with
    | none => .error spare.notDecimal
    | some (.finite negative rank) => .ok (.decimal (.finite negative rank), rest)
    | some _ => .error (.located input (.malformedNumber .outOfRange))
  | (text, false, rest) =>
    match integerOfText text with
    | .ok value => .ok (.integer value, rest)
    | .error .tooLarge => .error (.located input (.malformedNumber .tooLarge))
    | .error flaw => .error (spare.notInteger flaw)

theorem gather_length_le (text : List Char) (decimal : Bool) (input : List Char) :
    (gather text decimal input).2.2.length ≤ input.length := by
  induction input generalizing text decimal with
  | nil => exact Nat.le_refl _
  | cons c rest ih =>
    unfold gather
    split
    · split
      · exact Nat.le_refl _
      · exact Nat.le_succ_of_le (ih _ _)
    · split
      · exact Nat.le_succ_of_le (ih _ _)
      · exact Nat.le_refl _

theorem readText_length_le {spare : Spare} {input rest : List Char} {value : Number}
    (h : readText spare input = .ok (value, rest)) : rest.length ≤ input.length := by
  have hgather := gather_length_le (if input.head? = some '.' then ['0'] else []) false input
  unfold readText at h
  split at h <;> rename_i heq <;> rw [heq] at hgather
  · split at h
    · cases h
    · cases h
      exact hgather
    · cases h
  · split at h
    · cases h
      exact hgather
    · cases h
    · cases h

end Number

end Stencil
