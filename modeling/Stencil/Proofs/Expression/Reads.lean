import Stencil.Compiler.Compiled
import Stencil.Filter.Builtin
import Stencil.Proofs.Value.Access

/-!
What evaluation reads. A context enters the value of an expression through its lookups only, in the
operand or in the arguments of its filters, and a lookup that leads nowhere counts as null. So two
contexts that give equal values to the lookups of an expression (`Context.AgreesOn`) cannot be told
apart by it, whatever its filters do: each call of a filter has the same result in both
(`FilterCall.apply_eq_of_agreesOn`), and so has a whole row of them (`FilterCall.foldlM_apply_eq`),
which ends at the same failure. A variable that no lookup begins with is not read
(`Context.valueAt_insert_of_ne`), and a missing one is read as one that is null
(`Context.valueAt_insert_null`). Together these are `Compiled.evaluate_reads`.

Values are equal where nothing tells them apart: the two zeros, which show as different texts, are
different values.
-/

set_option autoImplicit false
set_option relaxedAutoImplicit false

namespace Stencil

/-! ### Values at paths -/

/-- Nothing but null is found in null. -/
theorem Value.getD_follow?_null (path : List String) : (null.follow? path).getD null = null := by
  cases path <;> rfl

namespace Context

/-- The value that the path leads to, or null where it leads nowhere. -/
def valueAt (context : Context) (path : List String) : Value :=
  (context.follow? path).getD .null

/-- The paths have equal values in both contexts, where leading nowhere and leading to null are not
told apart. -/
def AgreesOn (paths : List (List String)) (context other : Context) : Prop :=
  ∀ path ∈ paths, context.valueAt path = other.valueAt path

variable {context : Context} {name : String} {path : List String}

/-- A change to one variable does not show in paths that begin with another one. -/
theorem valueAt_insert_of_ne (hpath : path.head? ≠ some name) (context : Context) (value : Value) :
    (context.insert name value).valueAt path = context.valueAt path := by
  cases path with
  | nil => rfl
  | cons first rest =>
    have hne : first ≠ name := fun heq ↦ hpath (congrArg some heq)
    simp only [valueAt, follow?, get?_insert, if_neg hne]

/-- A missing variable may as well be null. -/
theorem valueAt_insert_null (hmissing : context.get? name = none) (path : List String) :
    (context.insert name .null).valueAt path = context.valueAt path := by
  by_cases hpath : path.head? = some name
  · obtain ⟨rest, rfl⟩ := List.head?_eq_some_iff.1 hpath
    simp only [valueAt, follow?, get?_insert, if_true, hmissing, Option.bind_some,
      Value.getD_follow?_null, Option.bind_none, Option.getD_none]
  · exact valueAt_insert_of_ne hpath context .null

end Context

/-! ### Lookups of an expression -/

/-- The path that the operand looks up, if it is a lookup. -/
def Operand.path? : Operand → Option (List String)
  | lookup path => some path
  | _ => none

/-- The paths that a filter looks up for its arguments. -/
def FilterCall.lookups (call : FilterCall) : List (List String) :=
  call.arguments.filterMap Operand.path?

/-- The paths that occur in the expression, in its operand or in the arguments of its filters. -/
def Expression.lookups (expression : Expression) : List (List String) :=
  expression.operands.filterMap Operand.path?

/-- The lookups of an expression are that of its operand and those of its filters, in order. -/
theorem Expression.lookups_eq (expression : Expression) :
    expression.lookups =
      expression.operand.path?.toList ++ expression.filters.flatMap FilterCall.lookups := by
  have hcalls : (expression.filters.flatMap FilterCall.arguments).filterMap Operand.path? =
      expression.filters.flatMap FilterCall.lookups := List.filterMap_flatMap
  rw [lookups, operands, List.filterMap_cons, hcalls]
  cases expression.operand.path? <;> rfl

/-! ### Evaluation -/

section Evaluation

variable {filters : Filters} {context other : Context}

/-- An operand has the same value where its lookup has. -/
theorem Operand.evaluate_eq_of_agrees {operand : Operand}
    (hagrees : ∀ path, operand.path? = some path → context.valueAt path = other.valueAt path) :
    operand.evaluate context = operand.evaluate other := by
  cases operand with
  | number value => rfl
  | text value => rfl
  | lookup path => exact hagrees path rfl

/-- One call has the same result in both contexts, be it a value or a failure. -/
theorem FilterCall.apply_eq_of_agreesOn {call : FilterCall}
    (hagrees : Context.AgreesOn call.lookups context other) (filters : Filters) (input : Value) :
    apply filters context input call = apply filters other input call := by
  have harguments : call.arguments.map (Operand.evaluate context) =
      call.arguments.map (Operand.evaluate other) := by
    refine List.map_congr_left fun operand hoperand ↦ Operand.evaluate_eq_of_agrees ?_
    exact fun path hpath ↦ hagrees path (List.mem_filterMap.2 ⟨operand, hoperand, hpath⟩)
  rw [apply, apply, harguments]

/-- The calls of a row are reached with equal inputs in both contexts, up to the one that fails. -/
theorem FilterCall.foldlM_apply_eq {calls : List FilterCall}
    (hagrees : Context.AgreesOn (calls.flatMap lookups) context other) (filters : Filters)
    (input : Value) :
    calls.foldlM (apply filters context) input = calls.foldlM (apply filters other) input := by
  induction calls generalizing input with
  | nil => rfl
  | cons call calls ih =>
    rw [Context.AgreesOn, List.flatMap_cons] at hagrees
    have hcall : Context.AgreesOn call.lookups context other :=
      fun path hpath ↦ hagrees path (List.mem_append_left _ hpath)
    have hcalls : Context.AgreesOn (calls.flatMap lookups) context other :=
      fun path hpath ↦ hagrees path (List.mem_append_right _ hpath)
    rw [List.foldlM_cons, List.foldlM_cons, apply_eq_of_agreesOn hcall]
    cases apply filters other input call with
    | error failure => rfl
    | ok value => exact ih hcalls value

/-- An expression has the same value, or fails in the same way, where its lookups have the same
values. -/
theorem Expression.evaluate_eq_of_agreesOn {expression : Expression}
    (hagrees : Context.AgreesOn expression.lookups context other) (filters : Filters) :
    expression.evaluate filters context = expression.evaluate filters other := by
  rw [Context.AgreesOn, lookups_eq] at hagrees
  have hoperand : expression.operand.evaluate context = expression.operand.evaluate other := by
    refine Operand.evaluate_eq_of_agrees fun path hpath ↦ hagrees path ?_
    exact List.mem_append_left _ (Option.mem_toList.2 hpath)
  have hcalls := FilterCall.foldlM_apply_eq
    (fun path hpath ↦ hagrees path (List.mem_append_right _ hpath)) filters
  rw [evaluate, evaluate, hoperand, hcalls]

end Evaluation

namespace Compiled

/-- What is compiled has the same value and the same text where its lookups have the same values. -/
theorem evaluate_render_eq_of_agreesOn {compiled : Compiled} {context other : Context}
    (hagrees : Context.AgreesOn compiled.expression.lookups context other) :
    compiled.evaluate context = compiled.evaluate other ∧
      compiled.render context = compiled.render other := by
  have heq : compiled.evaluate context = compiled.evaluate other :=
    Expression.evaluate_eq_of_agreesOn hagrees compiled.filters
  exact ⟨heq, by rw [render, render, heq]⟩

/-- What is compiled reads nothing of a context but the values of its lookups, and does not tell a
lookup that leads nowhere from one that leads to null: contexts that agree on the lookups give the
same value or the same failure, and the same text. A variable may be set to any value if no lookup
begins with it, and a missing variable to null even if one does. -/
theorem evaluate_reads (compiled : Compiled) (context : Context) :
    (∀ other, Context.AgreesOn compiled.expression.lookups context other →
      compiled.evaluate context = compiled.evaluate other ∧
        compiled.render context = compiled.render other) ∧
    (∀ name value, (∀ path ∈ compiled.expression.lookups, path.head? ≠ some name) →
      compiled.evaluate (context.insert name value) = compiled.evaluate context ∧
        compiled.render (context.insert name value) = compiled.render context) ∧
    ∀ name, context.get? name = none →
      compiled.evaluate (context.insert name .null) = compiled.evaluate context ∧
        compiled.render (context.insert name .null) = compiled.render context := by
  refine ⟨fun other ↦ evaluate_render_eq_of_agreesOn, fun name value hunread ↦ ?_,
    fun name hmissing ↦ ?_⟩
  · refine evaluate_render_eq_of_agreesOn fun path hpath ↦ ?_
    exact Context.valueAt_insert_of_ne (hunread path hpath) context value
  · refine evaluate_render_eq_of_agreesOn fun path _ ↦ ?_
    exact Context.valueAt_insert_null hmissing path

/-- The compiled form of `title|default:page.name`. -/
def titleOrName : Compiled where
  serial := 0
  source := "title|default:page.name"
  expression := ⟨.lookup ["title"], [⟨"default", [.lookup ["page", "name"]]⟩]⟩
  filters := .builtin

/-- A title that is missing, with the name of a page in its place: what else there is of the page is
not read, nor is the user, and the title may as well be null. -/
theorem evaluate_reads_argument :
    Context.AgreesOn [["title"], ["page", "name"]]
      ⟨[("page", .record [("name", .text "home")])]⟩
      ⟨[("page", .record [("name", .text "home"), ("open", .bool true)])]⟩ ∧
    titleOrName.evaluate ⟨[("page", .record [("name", .text "home")])]⟩ =
      titleOrName.evaluate
        ⟨[("page", .record [("name", .text "home"), ("open", .bool true)])]⟩ ∧
    (∀ path ∈ titleOrName.expression.lookups, path.head? ≠ some "user") ∧
    titleOrName.evaluate (Context.insert ⟨[("page", .null)]⟩ "user" (.text "me")) =
      titleOrName.evaluate ⟨[("page", .null)]⟩ ∧
    Context.get? ⟨[("page", .null)]⟩ "title" = none ∧
    titleOrName.render (Context.insert ⟨[("page", .null)]⟩ "title" .null) =
      titleOrName.render ⟨[("page", .null)]⟩ := by
  have hagrees : Context.AgreesOn [["title"], ["page", "name"]]
      ⟨[("page", .record [("name", .text "home")])]⟩
      ⟨[("page", .record [("name", .text "home"), ("open", .bool true)])]⟩ :=
    List.forall_mem_cons.2 ⟨rfl, List.forall_mem_singleton.2 rfl⟩
  have hunread : ∀ path ∈ titleOrName.expression.lookups, path.head? ≠ some "user" := by decide
  have hmissing : Context.get? ⟨[("page", .null)]⟩ "title" = none := rfl
  have hsame := (evaluate_reads titleOrName _).1 _ hagrees
  obtain ⟨-, hinsert, hnull⟩ := evaluate_reads titleOrName ⟨[("page", .null)]⟩
  exact ⟨hagrees, hsame.1, hunread, (hinsert "user" (.text "me") hunread).1, hmissing,
    (hnull "title" hmissing).2⟩

end Compiled

end Stencil
