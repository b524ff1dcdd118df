import Stencil.Expression.Number
import Stencil.Members

/-!
The values that expressions work on. Every value has a text, which is what a template shows of it,
and a truth value, which is what a filter asks of it. A record keeps its members in ascending order
of their names.
-/

set_option autoImplicit false
set_option relaxedAutoImplicit false

namespace Stencil

/-- What expressions evaluate to, and what contexts hold. -/
inductive Value where
  | null
  | bool (value : Bool)
  | integer (value : Int64)
  | decimal (value : Binary64)
  | text (value : String)
  | list (items : List Value)
  | record (members : List (String × Value))

namespace Value

/-- Whether the value counts as true: it is there, and it is not false, zero or empty. -/
def isTruthy : Value → Bool
  | null => false
  | bool value => value
  | integer value => value != 0
  | decimal value => !value.isZero
  | text value => !value.isEmpty
  | list items => !items.isEmpty
  | record members => !members.isEmpty

/-- The number of characters, items or members; other values have none. -/
def size : Value → Nat
  | text value => value.length
  | list items => items.length
  | record members => members.length
  | _ => 0

mutual

/-- The text that stands for the value in a template. A list shows its items one after the other;
a record shows nothing. -/
def render : Value → String
  | null => ""
  | bool value => if value then "true" else "false"
  | integer value => String.ofList (Number.spellInteger value.toInt)
  | decimal value => String.ofList value.spell
  | text value => value
  | list items => renderAll items
  | record _ => ""

def renderAll : List Value → String
  | [] => ""
  | item :: rest => item.render ++ renderAll rest

end

/-- The value of a number literal. -/
def ofNumber : Number → Value
  | .integer value => integer value
  | .decimal value => decimal value

end Value

end Stencil
