import Stencil.Expression.Evaluation

/-!
Compiled expressions. A compiled expression remembers the text it was read from and the filters
that it was compiled with. Two compilations are told apart by their serial numbers even where
everything else agrees: the same serial number is the same instance.
-/

set_option autoImplicit false
set_option relaxedAutoImplicit false

namespace Stencil

/-- An expression with the text that it was read from and the filters that it is bound to. -/
structure Compiled where
  /-- Distinguishes this instance from every other. -/
  serial : Nat
  source : String
  expression : Expression
  filters : Filters

namespace Compiled

/-- The value in a context. -/
def evaluate (compiled : Compiled) (context : Context) : Except Failure Value :=
  compiled.expression.evaluate compiled.filters context

/-- The text in a context. -/
def render (compiled : Compiled) (context : Context) : Except Failure String :=
  (compiled.evaluate context).map Value.render

end Compiled

end Stencil
