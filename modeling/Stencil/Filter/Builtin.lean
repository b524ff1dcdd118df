import Stencil.Filter.Basic
import Stencil.Text.Html
import Stencil.Text.LetterCase

/-!
The filters that every registry starts with: `escape`, `linebreaksbr`, `upper`, `lower`,
`default`, `length` and `join`. Of these only two can fail: `default` for want of an argument, and
`length` where the number is too large for an integer. Arguments that a filter has no use for are
ignored.
-/

set_option autoImplicit false
set_option relaxedAutoImplicit false

namespace Stencil

namespace Filter

/-- A filter that works on the text of its input. -/
def onText (change : String → String) : Filter :=
  fun input _ ↦ .ok (.text (change input.render))

/-- Makes the text safe for HTML. -/
def escape : Filter :=
  onText Html.escape

/-- Makes the text safe for HTML and turns its line feeds into line breaks. -/
def breakLines : Filter :=
  onText fun text ↦ Html.breakLines (Html.escape text)

def upper : Filter :=
  onText Text.toUpper

def lower : Filter :=
  onText Text.toLower

/-- The input if it counts as true, and else the first argument. -/
def default : Filter
  | _, [] => .error "expects one argument"
  | input, fallback :: _ => .ok (if input.isTruthy then input else fallback)

/-- The number of characters, items or members. -/
def length : Filter :=
  fun input _ ↦
    if input.size ≤ Number.greatest then .ok (.integer (Int64.ofNat input.size))
    else .error "out of range integral type conversion attempted"

/-- The texts of a list's items with the text of the first argument between each two; another
value is left as it is. -/
def join : Filter
  | .list items, arguments =>
    let separator := (arguments.head?.map Value.render).getD ""
    .ok (.text (separator.intercalate (items.map Value.render)))
  | input, _ => .ok input

end Filter

namespace Filters

/-- The built-in filters by their names. -/
def builtin : Filters :=
  ({} : Filters)
    |>.register "escape" Filter.escape
    |>.register "linebreaksbr" Filter.breakLines
    |>.register "upper" Filter.upper
    |>.register "lower" Filter.lower
    |>.register "default" Filter.default
    |>.register "length" Filter.length
    |>.register "join" Filter.join

end Filters

end Stencil
