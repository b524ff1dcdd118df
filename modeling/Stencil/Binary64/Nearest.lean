import Stencil.Binary64.Basic

/-!
Reading numbers into double precision. A ratio of naturals goes to the nearest value, and a ratio
halfway between two neighbours goes to the one of even rank, which is the one whose last bit is
zero. Everything is compared exactly, in units of `2 ^ -1074` scaled by the denominator. The rank
after the last finite one takes part like any other, so overflow to infinity needs no rule of its
own.
-/

set_option autoImplicit false
set_option relaxedAutoImplicit false

namespace Stencil.Binary64

/-- The greatest rank whose magnitude is at most `amount` units. -/
def rankBelow (amount : Nat) : Nat :=
  let shift := amount.log2 - 52
  shift * blockSize + (amount >>> shift)

/-- The rank nearest to `numerator / denominator`, the even one of two that are equally near. -/
def nearestRank (numerator denominator : Nat) : Nat :=
  let amount := numerator <<< 1074
  let below := rankBelow (amount / denominator)
  let midpoint := (units below + units (below + 1)) * denominator
  if 2 * amount < midpoint then below
  else if midpoint < 2 * amount then below + 1
  else below + below % 2

/-- The value nearest to `numerator / denominator`, with the given sign. -/
def ofRatio (negative : Bool) (numerator denominator : Nat) : Binary64 :=
  ofRank negative (nearestRank numerator denominator)

/-- Ten to the power of the number of places. -/
def tenPower (places : Nat) : Nat :=
  Nat.pow 10 places

/-- The value nearest to the decimal with these digits before and after the point. An empty part
counts as zero. -/
def ofDecimal (whole fraction : List Char) : Binary64 :=
  ofRatio false (Nat.ofDigitChars 10 (whole ++ fraction) 0) (tenPower fraction.length)

/-- The value nearest to `significand * 10 ^ exponent`. Beyond four hundred places on either side
the answer is known without computing the power. -/
def ofScientific (negative : Bool) (significand : Nat) (exponent : Int) : Binary64 :=
  if significand = 0 ∨ exponent + (Nat.toDigits 10 significand).length < -400 then
    ofRank negative 0
  else if 400 < exponent then .infinite negative
  else ofRatio negative (significand * tenPower exponent.toNat) (tenPower (-exponent).toNat)

end Stencil.Binary64
