/-!
Text made safe for HTML. The five characters that have a meaning in markup are replaced by
entities; everything else is kept. `breakLines` then turns line feeds into line breaks.
-/

set_option autoImplicit false
set_option relaxedAutoImplicit false

namespace Stencil.Html

/-- The entity that stands for a character of markup. -/
def entity? : Char → Option String
  | '&' => some "&amp;"
  | '<' => some "&lt;"
  | '>' => some "&gt;"
  | '"' => some "&quot;"
  | '\'' => some "&#39;"
  | _ => none

/-- A character as it is written in the text of a page. -/
def escapeChar (c : Char) : List Char :=
  match entity? c with
  | some entity => entity.toList
  | none => [c]

/-- The text with every character of markup replaced by its entity. -/
def escape (text : String) : String :=
  String.ofList (text.toList.flatMap escapeChar)

/-- The element that breaks a line. -/
def lineBreak : String := "<br />"

/-- The text with every line feed replaced by a line break. -/
def breakLines (text : String) : String :=
  String.ofList (text.toList.flatMap fun c ↦ if c = '\n' then lineBreak.toList else [c])

end Stencil.Html
