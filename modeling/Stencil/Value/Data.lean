import Stencil.Binary64.Nearest
import Stencil.Text.Word
import Stencil.Value.Basic

/-!
Plain data, as a JSON text writes it, and the values it stands for. A number is known by its
numeral. A whole numeral becomes an integer where it fits into 64 bits and the nearest decimal
where it does not; a numeral with a point or an exponent always becomes a decimal. The numeral
`-0` keeps its sign, which only a decimal can. This is how readers of JSON take numbers; access by
path depends on nothing of it but that a number has no parts.
-/

set_option autoImplicit false
set_option relaxedAutoImplicit false

namespace Stencil

/-- A number as it is written. -/
inductive Numeral where
  /-- Digits alone. -/
  | whole (negative : Bool) (magnitude : Nat)
  /-- Digits with a point or an exponent: `significand * 10 ^ exponent`. -/
  | scientific (negative : Bool) (significand : Nat) (exponent : Int)
deriving DecidableEq

/-- What a text of data says, before it is taken as a value. -/
inductive Data where
  | null
  | bool (value : Bool)
  | number (numeral : Numeral)
  | text (value : String)
  | list (items : List Data)
  | record (members : List (String × Data))

namespace Numeral

/-- The exponent behind its mark, with an optional sign. -/
def exponent? : List Char → Option Int
  | '+' :: digits => (Text.natural? digits).map Int.ofNat
  | '-' :: digits => (Text.natural? digits).map fun value ↦ -Int.ofNat value
  | digits => (Text.natural? digits).map Int.ofNat

/-- The numeral without its sign: digits, then perhaps a point with digits, then perhaps an
exponent behind `e` or `E`. -/
def magnitude? (negative : Bool) (text : List Char) : Option Numeral := do
  let mantissa := text.takeWhile fun c ↦ c ≠ 'e' ∧ c ≠ 'E'
  let power ← match text.dropWhile fun c ↦ c ≠ 'e' ∧ c ≠ 'E' with
    | [] => some none
    | _ :: digits => (exponent? digits).map some
  match mantissa.dropWhile Char.isDigit, power with
  | [], none => (Text.natural? mantissa).map (.whole negative)
  | [], some exponent =>
    (Text.natural? mantissa).map fun value ↦ .scientific negative value exponent
  | '.' :: fraction, exponent =>
    let _ ← Text.natural? fraction
    let value ← Text.natural? (mantissa.takeWhile Char.isDigit ++ fraction)
    some (.scientific negative value (exponent.getD 0 - fraction.length))
  | _, _ => none

/-- The numeral that the text spells. -/
def ofText? (text : String) : Option Numeral :=
  match text.toList with
  | '-' :: rest => magnitude? true rest
  | rest => magnitude? false rest

def ofInt (value : Int) : Numeral :=
  .whole (decide (value < 0)) value.natAbs

/-- The value that the numeral stands for. -/
def value : Numeral → Value
  | whole false magnitude =>
    if magnitude ≤ Number.greatest then .integer (Int64.ofNat magnitude)
    else .decimal (.ofRatio false magnitude 1)
  | whole true magnitude =>
    if 0 < magnitude ∧ magnitude ≤ Number.greatest + 1 then .integer (Int64.ofInt (-magnitude))
    else .decimal (.ofRatio true magnitude 1)
  | scientific negative significand exponent =>
    .decimal (.ofScientific negative significand exponent)

end Numeral

namespace Value

mutual

/-- The value that the data stands for. -/
def ofData : Data → Value
  | .null => null
  | .bool value => bool value
  | .number numeral => numeral.value
  | .text value => text value
  | .list items => list (ofDataList items)
  | .record members => record (Members.ofPairs (ofDataMembers members))

def ofDataList : List Data → List Value
  | [] => []
  | item :: rest => ofData item :: ofDataList rest

/-- The members with the values of their items, in order and with all repetitions. -/
def ofDataMembers : List (String × Data) → List (String × Value)
  | [] => []
  | (name, item) :: rest => (name, ofData item) :: ofDataMembers rest

end

end Value

end Stencil
