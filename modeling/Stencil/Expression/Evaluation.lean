import Stencil.Context
import Stencil.Failure
import Stencil.Filter.Basic

/-!
The value of an expression in a context. Lookups that lead nowhere count as null. Filters are
applied from left to right, and the first one that is unknown or fails ends the evaluation.
-/

set_option autoImplicit false
set_option relaxedAutoImplicit false

namespace Stencil

/-- The value of an operand. -/
def Operand.evaluate (context : Context) : Operand → Value
  | number value => .ofNumber value
  | text value => .text value
  | lookup path => (context.follow? path).getD .null

/-- The value that the filter makes of its input. -/
def FilterCall.apply (filters : Filters) (context : Context) (input : Value) (call : FilterCall) :
    Except Failure Value :=
  match filters.find? call.name with
  | none => .error (.unknownFilter call.name)
  | some filter =>
    match filter input (call.arguments.map (Operand.evaluate context)) with
    | .ok value => .ok value
    | .error message => .error (.filterFailed call.name message)

/-- The value of an expression, with its filters taken from the registry. -/
def Expression.evaluate (filters : Filters) (context : Context) (expression : Expression) :
    Except Failure Value :=
  expression.filters.foldlM (FilterCall.apply filters context)
    (expression.operand.evaluate context)

/-! ### Calls -/

namespace FilterCall

variable {filters : Filters} {call : FilterCall}

/-- A filter that is not registered fails whatever it is given. -/
theorem apply_of_find?_eq_none (hfind : filters.find? call.name = none) (context : Context)
    (input : Value) : apply filters context input call = .error (.unknownFilter call.name) := by
  simp only [apply, hfind]

/-- A registered filter is given the input and the values of its arguments, and its failure names
it. -/
theorem apply_of_find?_eq_some {filter : Filter} (hfind : filters.find? call.name = some filter)
    (context : Context) (input : Value) :
    apply filters context input call =
      (filter input (call.arguments.map (Operand.evaluate context))).mapError
        (.filterFailed call.name) := by
  simp only [apply, hfind]
  split <;> rename_i hresult <;> rw [hresult] <;> rfl

end FilterCall

/-- One more filter works on the value of the expression without it. -/
theorem Expression.evaluate_withFilter (filters : Filters) (context : Context)
    (expression : Expression) (call : FilterCall) :
    (expression.withFilter call).evaluate filters context =
      (expression.evaluate filters context).bind (FilterCall.apply filters context · call) := by
  simp only [evaluate, withFilter, List.foldlM_append, List.foldlM_cons, List.foldlM_nil, bind_pure]
  rfl

end Stencil
