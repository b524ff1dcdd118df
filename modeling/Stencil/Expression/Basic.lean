import Stencil.Binary64.Basic

/-!
Template expressions: an operand, and the filters that its value is piped through. An operand is a
number, a text or a lookup by path; the arguments of a filter are operands again. Read flat, an
expression is a list of fragments, its operand first and then one fragment for each filter
(`Expression.fragments`), and such a list is put together again by `Expression.ofFragments?`.
-/

set_option autoImplicit false
set_option relaxedAutoImplicit false

namespace Stencil

/-- A number as a literal denotes it: whole numbers are kept apart from decimals. -/
inductive Number where
  | integer (value : Int64)
  | decimal (value : Binary64)
deriving DecidableEq

/-- What an expression starts from, and what a filter takes as an argument. -/
inductive Operand where
  | number (value : Number)
  | text (value : String)
  /-- The value found in the context by following the path. -/
  | lookup (path : List String)
deriving DecidableEq

/-- A filter by its name, with the arguments it is given. -/
structure FilterCall where
  name : String
  arguments : List Operand
deriving DecidableEq

/-- An operand and the filters applied to it, first to last. -/
structure Expression where
  operand : Operand
  filters : List FilterCall
deriving DecidableEq

/-- A piece of an expression in reading order. -/
inductive Fragment where
  | operand (value : Operand)
  | filter (call : FilterCall)
deriving DecidableEq

namespace Fragment

/-- The operand that the fragment is, if it is one. -/
def operand? : Fragment → Option Operand
  | operand value => some value
  | filter _ => none

/-- The filter that the fragment is, if it is one. -/
def filter? : Fragment → Option FilterCall
  | operand _ => none
  | filter call => some call

@[simp] theorem operand?_operand (value : Operand) : (operand value).operand? = some value := rfl

@[simp] theorem filter?_filter (call : FilterCall) : (filter call).filter? = some call := rfl

/-- Among the fragments of filters, every fragment is the filter that it was made of. -/
theorem filterMap_filter?_map (calls : List FilterCall) :
    (calls.map filter).filterMap filter? = calls := by
  simp [List.filterMap_map, Function.comp_def]

end Fragment

namespace Expression

/-- The expression as a flat list: its operand, then its filters. -/
def fragments (expression : Expression) : List Fragment :=
  .operand expression.operand :: expression.filters.map .filter

/-- The expression that starts from the first fragment, if that is an operand, and applies the
filters among the others. -/
def ofFragments? : List Fragment → Option Expression
  | .operand value :: rest => some ⟨value, rest.filterMap Fragment.filter?⟩
  | _ => none

/-- The expression with one more filter at the end. -/
def withFilter (expression : Expression) (call : FilterCall) : Expression :=
  { expression with filters := expression.filters ++ [call] }

/-- An expression is put together again from its fragments. -/
theorem ofFragments?_fragments (expression : Expression) :
    ofFragments? expression.fragments = some expression := by
  rw [fragments, ofFragments?, Fragment.filterMap_filter?_map]

end Expression

end Stencil
