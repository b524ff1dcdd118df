import Std.Data.TreeMap
import Stencil.Text.Quoted
import Stencil.Value.Basic

/-!
Filters and the registries that name them. A filter computes a value from its input and its
arguments, or fails with a message; it sees nothing else. A registry holds at most one filter
under each name, and a later one takes the place of an earlier one.
-/

set_option autoImplicit false
set_option relaxedAutoImplicit false

namespace Stencil

/-- A function of the piped value and the arguments. -/
abbrev Filter := Value → List Value → Except String Value

/-- Filters by name. -/
structure Filters where
  table : Std.TreeMap String Filter := ∅

/-- A list of names, each quoted, between brackets. -/
def listNames (names : List String) : String :=
  "[" ++ ", ".intercalate (names.map Text.quoted) ++ "]"

namespace Filters

/-- The registry with one more filter, or with one replaced. -/
def register (filters : Filters) (name : String) (filter : Filter) : Filters :=
  ⟨filters.table.insert name filter⟩

def find? (filters : Filters) (name : String) : Option Filter :=
  filters.table[name]?

def contains (filters : Filters) (name : String) : Bool :=
  filters.table.contains name

/-- The names in use, in ascending order. -/
def names (filters : Filters) : List String :=
  filters.table.keys

/-- The registry as a listing shows it. -/
def describe (filters : Filters) : String :=
  "FilterRegistry \x7b filters: " ++ listNames filters.names ++ " \x7d"

/-- A registered filter is found under its name, and the other names are not affected. -/
theorem find?_register (filters : Filters) (name key : String) (filter : Filter) :
    (filters.register name filter).find? key =
      if key = name then some filter else filters.find? key := by
  simp only [find?, register, Std.TreeMap.getElem?_insert]
  by_cases hkey : key = name
  · simp [hkey]
  · have hne : ¬compare name key = .eq := fun heq ↦
      hkey (Std.LawfulEqOrd.compare_eq_iff_eq.1 heq).symm
    simp [hkey, hne]

end Filters

end Stencil
