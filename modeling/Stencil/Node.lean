import Stencil.Compiler.Compiled

/-!
Nodes, the parts of a template after its tokens have been put together: text, placeholders, and tags
with their arguments and their body.
-/

set_option autoImplicit false
set_option relaxedAutoImplicit false

namespace Stencil

/-- A piece of a parsed template. -/
inductive Node where
  | text (value : String)
  | placeholder (expression : Compiled)
  | tag (name : String) (arguments : List Compiled) (body : List Node)

namespace Node

mutual

/-- The compiled expressions of a node: those of a tag are its arguments and then those of its
body. -/
def expressions : Node → List Compiled
  | text _ => []
  | placeholder expression => [expression]
  | tag _ arguments body => arguments ++ expressionsOf body

/-- The compiled expressions of a list of nodes, in the order of the nodes. -/
def expressionsOf : List Node → List Compiled
  | [] => []
  | node :: rest => node.expressions ++ expressionsOf rest

end

end Node

end Stencil
