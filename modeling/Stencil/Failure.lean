import Stencil.Expression.Fault

/-!
What can go wrong with a template: an expression that cannot be read, a filter that is not known
or that fails, a tag that is not known or not closed. The wording is in `Failure.message`.
-/

set_option autoImplicit false
set_option relaxedAutoImplicit false

namespace Stencil

/-- Why a text cannot be compiled, a template not be parsed or an expression not be evaluated. -/
inductive Failure where
  /-- The source text is not an expression. -/
  | malformed (source : String) (error : ScanError)
  | unknownFilter (name : String)
  | filterFailed (name message : String)
  | unknownTag (name : String)
  /-- The tokens ended before the tag that closes this one. -/
  | unclosedTag (name closing : String)
deriving DecidableEq

/-- The text that reports a failure. -/
def Failure.message : Failure → String
  | malformed source error => "in expression `" ++ source ++ "`: " ++ error.message
  | unknownFilter name => "Unknown filter: " ++ name
  | filterFailed name message => "Filter '" ++ name ++ "' failed: " ++ message
  | unknownTag name => "Unknown tag: " ++ name
  | unclosedTag name closing => "Unclosed tag '" ++ name ++ "': expected '" ++ closing ++ "'"

end Stencil
