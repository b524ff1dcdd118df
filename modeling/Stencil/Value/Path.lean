import Stencil.Text.Word
import Stencil.Value.Basic

/-!
Access by path. A path is followed one segment after the other: into a record by the name of a
member, into a list by the position of an item, and into any other value not at all. A position is
written with decimal digits, perhaps behind a plus sign; leading zeros are allowed.
-/

set_option autoImplicit false
set_option relaxedAutoImplicit false

namespace Stencil

/-- The position that a segment names. -/
def position? (segment : String) : Option Nat :=
  match segment.toList with
  | '+' :: digits => Text.natural? digits
  | digits => Text.natural? digits

namespace Value

/-- The part of the value that one segment leads to. -/
def child? (value : Value) (segment : String) : Option Value :=
  match value with
  | record members => members.lookup segment
  | list items => (position? segment).bind fun position ↦ items[position]?
  | _ => none

/-- The part of the value that the path leads to. -/
def follow? (value : Value) (path : List String) : Option Value :=
  path.foldlM child? value

@[simp] theorem follow?_nil (value : Value) : value.follow? [] = some value := rfl

@[simp] theorem follow?_cons (value : Value) (segment : String) (path : List String) :
    value.follow? (segment :: path) =
      (value.child? segment).bind fun child ↦ child.follow? path := rfl

end Value

end Stencil
