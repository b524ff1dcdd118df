import Stencil.Expression.Literal
import Stencil.Expression.Lookup
import Stencil.Expression.Number

/-!
The canonical text of expressions: no blanks, single quotes around texts, and a point in every
decimal.
-/

set_option autoImplicit false
set_option relaxedAutoImplicit false

namespace Stencil

def Operand.spell : Operand → List Char
  | number value => value.spell
  | text value => Literal.spell '\'' value.toList
  | lookup path => Lookup.spell path

/-- The arguments of a filter: a colon before the first and a comma before each other. -/
def FilterCall.spellArguments : List Operand → List Char
  | [] => []
  | first :: others => ':' :: first.spell ++ others.flatMap fun other ↦ ',' :: other.spell

/-- The text of a filter with its arguments, from its bar on. -/
def FilterCall.spell (call : FilterCall) : List Char :=
  '|' :: call.name.toList ++ spellArguments call.arguments

def Expression.spell (expression : Expression) : List Char :=
  expression.operand.spell ++ expression.filters.flatMap FilterCall.spell

/-- The canonical text of the expression. -/
def Expression.display (expression : Expression) : String :=
  String.ofList expression.spell

end Stencil
