import Stencil.Value.Data
import Stencil.Value.Path

/-!
Contexts: the variables that an expression can look up, by name. A path begins with the name of a
variable and goes on inside its value; the empty path leads nowhere.
-/

set_option autoImplicit false
set_option relaxedAutoImplicit false

namespace Stencil

/-- Variables by name. -/
structure Context where
  bindings : List (String × Value) := []

namespace Context

/-- The context with the variable set to the value. -/
def insert (context : Context) (name : String) (value : Value) : Context :=
  ⟨Members.insert name value context.bindings⟩

def get? (context : Context) (name : String) : Option Value :=
  context.bindings.lookup name

/-- The members of a record as variables, set one after the other; other data has none. -/
def ofData : Data → Context
  | .record members =>
    members.foldl (fun context member ↦ context.insert member.1 (.ofData member.2)) {}
  | _ => {}

/-- The value that the path leads to. -/
def follow? (context : Context) : List String → Option Value
  | [] => none
  | name :: path => (context.get? name).bind fun value ↦ value.follow? path

/-- Setting a variable changes its value and no other. -/
theorem get?_insert (context : Context) (key name : String) (value : Value) :
    (context.insert name value).get? key = if key = name then some value else context.get? key :=
  Members.lookup_insert key name value context.bindings

end Context

end Stencil
