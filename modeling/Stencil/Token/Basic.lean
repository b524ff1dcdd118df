/-!
The tokens that templates are made of: text, placeholders, tags and comments. A tag has a name, and
its content is everything behind the name.
-/

set_option autoImplicit false
set_option relaxedAutoImplicit false

namespace Stencil

/-- A tag: its name, and what is written behind the name. -/
structure TagToken where
  name : String
  content : String
deriving DecidableEq

/-- A piece of a template before it is parsed. -/
inductive Token where
  | text (value : String)
  /-- The source of an expression whose value is shown. -/
  | placeholder (source : String)
  | tag (token : TagToken)
  | comment (value : String)
deriving DecidableEq

inductive TokenKind where
  | text
  | placeholder
  | tag
  | comment
deriving DecidableEq

namespace Token

def kind : Token → TokenKind
  | text _ => .text
  | placeholder _ => .placeholder
  | tag _ => .tag
  | comment _ => .comment

/-- Whether the token is a tag of one of the names. -/
def isTag (names : List String) : Token → Bool
  | tag token => names.contains token.name
  | _ => false

end Token

end Stencil
