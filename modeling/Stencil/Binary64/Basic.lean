/-!
Double-precision binary numbers, held exactly. The non-negative finite values are numbered in
ascending order from zero; the number of a value is its rank. Every finite magnitude is a whole
number of units of `2 ^ -1074`, and `units` gives that number. The first `2 ^ 53` ranks are spaced
one unit apart; from there on each block of `2 ^ 52` ranks doubles the spacing. The rank that
would come after the last finite one stands for `2 ^ 1024`, where overflow begins.

The bit pattern of a value is its rank, with the sign in the top bit. One value stands for all
patterns that are not numbers.
-/

set_option autoImplicit false
set_option relaxedAutoImplicit false

namespace Stencil

/-- The number of ranks in a block, `2 ^ 52`. -/
abbrev Binary64.blockSize : Nat := 0x10000000000000

/-- The number of finite magnitudes, which is also the bit pattern of infinity. -/
abbrev Binary64.rankCount : Nat := 2047 * Binary64.blockSize

/-- The bit of the sign, `2 ^ 63`. -/
abbrev Binary64.signBit : Nat := 0x8000000000000000

/-- A double-precision number. -/
inductive Binary64 where
  /-- A finite value, by its sign and the rank of its magnitude. -/
  | finite (negative : Bool) (rank : Fin Binary64.rankCount)
  /-- One of the two infinities. -/
  | infinite (negative : Bool)
  /-- The result that is not a number. -/
  | nan
deriving DecidableEq, Repr

namespace Binary64

/-- The magnitude of a rank in units of `2 ^ -1074`. -/
def units (rank : Nat) : Nat :=
  if rank < blockSize then rank
  else (blockSize + rank % blockSize) <<< (rank / blockSize - 1)

/-- The value of the given sign and rank; ranks past the last finite one are infinite. -/
def ofRank (negative : Bool) (rank : Nat) : Binary64 :=
  if h : rank < rankCount then .finite negative ⟨rank, h⟩ else .infinite negative

/-- Whether the value is one of the two zeros. -/
def isZero : Binary64 → Bool
  | finite _ rank => rank.val == 0
  | _ => false

/-- The 64-bit pattern of the value. -/
def toBits : Binary64 → Nat
  | finite negative rank => (if negative then signBit else 0) + rank
  | infinite negative => (if negative then signBit else 0) + rankCount
  | nan => rankCount + blockSize / 2

/-- The value of a 64-bit pattern. -/
def ofBits (bits : Nat) : Binary64 :=
  let negative := decide (signBit ≤ bits)
  let rank := bits % signBit
  if rank ≤ rankCount then ofRank negative rank else nan

end Binary64

end Stencil
