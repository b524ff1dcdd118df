import Stencil.Filter.Basic
import Stencil.Text.LetterCase

/-!
Further filters, which are not built in: `wrap`, `shout`, `twice`, `fail`, `list` and `truthy`. They
are what a program might bring along, and registries are filled with them where sessions are run on
examples. What holds of registries holds of any filters, and of these as of others, so that nothing
else depends on them.
-/

set_option autoImplicit false
set_option relaxedAutoImplicit false

namespace Stencil.Filter

/-- The text of the input between the texts of two arguments. -/
def wrap : Filter
  | input, [before, after] => .ok (.text (before.render ++ input.render ++ after.render))
  | _, arguments => .error ("expects 2 arguments, got " ++ toString arguments.length)

/-- The text of the input in upper case, with an exclamation mark. -/
def shout : Filter :=
  fun input _ ↦ .ok (.text (Text.toUpper input.render ++ "!"))

/-- The text of the input, two times over. -/
def twice : Filter :=
  fun input _ ↦ .ok (.text (input.render ++ input.render))

/-- Fails with the text of the input as its message. -/
def fail : Filter :=
  fun input _ ↦ .error input.render

/-- The arguments as a list. -/
def list : Filter :=
  fun _ arguments ↦ .ok (.list arguments)

/-- Whether the input counts as true. -/
def truthy : Filter :=
  fun input _ ↦ .ok (.bool input.isTruthy)

end Stencil.Filter
