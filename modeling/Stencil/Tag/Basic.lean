import Std.Data.TreeMap
import Stencil.Tag.Script
import Stencil.Text.Quoted
import Stencil.Filter.Basic
import Stencil.Token.Arguments

/-!
Tags and the registries that name them. A block takes every argument as an expression and has the
nodes up to its closing tag as its body; the closing tag is taken with it. A marker leaves no
node. A registry holds at most one handler under each name, and a later one takes the place of an
earlier one.
-/

set_option autoImplicit false
set_option relaxedAutoImplicit false

namespace Stencil

/-- What a tag does that runs up to a closing tag. -/
def TagHandler.block (closing : String) : TagHandler := fun token ↦ do
  let arguments ← Script.compileAll token.arguments
  let body ← Script.nodesUntil (Token.isTag [closing])
  match ← Script.nextToken with
  | none => Script.fail (.unclosedTag token.name closing)
  | some _ => return some (.tag token.name arguments body)

/-- What a tag does that stands for nothing. -/
def TagHandler.marker : TagHandler := fun _ ↦ return none

/-- Tag handlers by name. -/
structure Tags where
  table : Std.TreeMap String TagHandler := ∅

namespace Tags

/-- The registry with one more handler, or with one replaced. -/
def register (tags : Tags) (name : String) (handler : TagHandler) : Tags :=
  ⟨tags.table.insert name handler⟩

/-- The registry with a tag that has a body up to its closing tag. -/
def registerBlock (tags : Tags) (name closing : String) : Tags :=
  tags.register name (.block closing)

/-- The registry with a tag that stands for nothing. -/
def registerMarker (tags : Tags) (name : String) : Tags :=
  tags.register name .marker

def find? (tags : Tags) (name : String) : Option TagHandler :=
  tags.table[name]?

def contains (tags : Tags) (name : String) : Bool :=
  tags.table.contains name

/-- The names in use, in ascending order. -/
def names (tags : Tags) : List String :=
  tags.table.keys

/-- The registry as a listing shows it. -/
def describe (tags : Tags) : String :=
  "TagRegistry \x7b tags: " ++ listNames tags.names ++ " \x7d"

/-- A registered handler is found under its name, and the other names are not affected. -/
theorem find?_register (tags : Tags) (name key : String) (handler : TagHandler) :
    (tags.register name handler).find? key =
      if key = name then some handler else tags.find? key := by
  simp only [find?, register, Std.TreeMap.getElem?_insert]
  by_cases hkey : key = name
  · simp [hkey]
  · have hne : ¬compare name key = .eq := fun heq ↦
      hkey (Std.LawfulEqOrd.compare_eq_iff_eq.1 heq).symm
    simp [hkey, hne]

end Tags

end Stencil
