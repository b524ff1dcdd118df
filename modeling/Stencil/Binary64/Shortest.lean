import Stencil.Binary64.Nearest

/-!
Decimal text of double-precision numbers. A finite value is written with the fewest digits that
read back to it; of several such decimals the nearest is taken, and of two equally near the larger
magnitude. The text is always positional: there is no exponent, and no point where the value is
whole.

Amounts are counted in units of `10 ^ -1074`, in which every finite magnitude is a natural number.
-/

set_option autoImplicit false
set_option relaxedAutoImplicit false

namespace Stencil.Binary64

/-- The magnitude of a rank in units of `10 ^ -1074`. -/
def exactAmount (rank : Nat) : Nat :=
  units rank * Nat.pow 5 1074

/-- Whether an amount of units of `10 ^ -1074` reads back to the rank. -/
def readsBack (rank amount : Nat) : Bool :=
  nearestRank amount (tenPower 1074) == rank

/-- Of two candidates around an amount, the one that passes the check; of two that do, the nearer,
and the upper one of two that are equally near. -/
def nearerOf? (check : Nat → Bool) (amount below above : Nat) : Option Nat :=
  match check below, check above with
  | true, true => some (if amount - below < above - amount then below else above)
  | true, false => some below
  | false, true => some above
  | false, false => none

/-- The multiple of `step` that reads back to the rank, if one of the two around its exact
magnitude does. -/
def onGrid? (rank step : Nat) : Option Nat :=
  let amount := exactAmount rank
  let below := amount / step * step
  nearerOf? (readsBack rank) amount below (below + step)

/-- The amount of the shortest decimal that reads back to the rank. Grids are tried from the
leading digit on; seventeen digits are enough for every value, and the exact amount closes the
search. -/
def shortestAmount (rank : Nat) : Nat :=
  let amount := exactAmount rank
  let places := (Nat.toDigits 10 amount).length
  ((List.range 17).findSome? fun count ↦ onGrid? rank (tenPower (places - 1 - count))).getD amount

/-- The digits without the zeros at their end. -/
def dropFinalZeros (digits : List Char) : List Char :=
  (digits.reverse.dropWhile (· == '0')).reverse

/-- The digits behind the point of an amount below one, without final zeros. -/
def fractionDigits (amount : Nat) : List Char :=
  let digits := Nat.toDigits 10 amount
  dropFinalZeros (List.replicate (1074 - digits.length) '0' ++ digits)

/-- An amount of units of `10 ^ -1074` in positional notation. -/
def positional (amount : Nat) : List Char :=
  let whole := Nat.toDigits 10 (amount / tenPower 1074)
  let part := amount % tenPower 1074
  if part = 0 then whole else whole ++ '.' :: fractionDigits part

/-- The text of a value. -/
def spell : Binary64 → List Char
  | finite negative rank => (if negative then ['-'] else []) ++ positional (shortestAmount rank)
  | infinite negative => (if negative then ['-'] else []) ++ ['i', 'n', 'f']
  | nan => ['N', 'a', 'N']

end Stencil.Binary64
