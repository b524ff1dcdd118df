import Stencil.Compiler.Compiled
import Stencil.Filter.Builtin

/-!
Failures with the built-in filters. A built-in filter takes every input and any arguments
(`Filter.Accepts`), except that `default` needs an argument. A call is thus bound to fail, or bound
to give a value, by its own text (`FilterCall.flaw?`, `FilterCall.apply_builtin_eq_error_iff`), and
an expression fails as the first of its calls that is bound to, whatever the context
(`Expression.evaluate_builtin_eq_error_iff`, `Compiled.evaluate_builtin`).

Values are taken to be of a size that an integer can hold, as `length` refuses any other
(`Expression.Sizable`).
-/

set_option autoImplicit false
set_option relaxedAutoImplicit false

namespace Stencil

/-! ### Filters -/

namespace Filter

/-- A filter that gives a value whatever its arguments, for an input of a size that an integer can
hold. -/
def Accepts (filter : Filter) : Prop :=
  ∀ input arguments, input.size ≤ Number.greatest → ∃ value, filter input arguments = .ok value

theorem onText_accepts (change : String → String) : (onText change).Accepts :=
  fun _ _ _ ↦ ⟨_, rfl⟩

theorem length_accepts : length.Accepts :=
  fun _ _ hsize ↦ ⟨_, if_pos hsize⟩

/-- Joining never fails, neither for want of a separator nor for want of a list. -/
theorem join_accepts : join.Accepts := by
  intro input arguments _
  cases input <;> exact ⟨_, rfl⟩

/-- With something to fall back on, `default` does not fail. -/
theorem exists_default_eq_ok (input : Value) {arguments : List Value} (hne : arguments ≠ []) :
    ∃ value, default input arguments = .ok value := by
  obtain ⟨fallback, others, rfl⟩ := List.exists_cons_of_ne_nil hne
  exact ⟨_, rfl⟩

end Filter

namespace Filters

/-- The names of the built-in filters. -/
def builtinNames : List String :=
  ["escape", "linebreaksbr", "upper", "lower", "default", "length", "join"]

/-- Every name of a built-in filter but `default` stands for a filter that takes any input. -/
theorem exists_find?_builtin {name : String} (hname : name ∈ builtinNames)
    (hdefault : name ≠ "default") :
    ∃ filter, builtin.find? name = some filter ∧ filter.Accepts := by
  simp only [builtinNames, List.mem_cons, List.not_mem_nil, or_false] at hname
  rcases hname with rfl | rfl | rfl | rfl | rfl | rfl | rfl
  · exact ⟨Filter.escape, by simp [builtin, find?_register], Filter.onText_accepts _⟩
  · exact ⟨Filter.breakLines, by simp [builtin, find?_register], Filter.onText_accepts _⟩
  · exact ⟨Filter.upper, by simp [builtin, find?_register], Filter.onText_accepts _⟩
  · exact ⟨Filter.lower, by simp [builtin, find?_register], Filter.onText_accepts _⟩
  · exact absurd rfl hdefault
  · exact ⟨Filter.length, by simp [builtin, find?_register], Filter.length_accepts⟩
  · exact ⟨Filter.join, by simp [builtin, find?_register], Filter.join_accepts⟩

theorem find?_builtin_default : builtin.find? "default" = some Filter.default := by
  simp [builtin, find?_register]

/-- No other names are built in. -/
theorem find?_builtin_eq_none {name : String} (hname : name ∉ builtinNames) :
    builtin.find? name = none := by
  simp only [builtinNames, List.mem_cons, List.not_mem_nil, or_false, not_or] at hname
  simp only [builtin, find?_register, hname, if_false]
  simp [find?]

end Filters

/-! ### Calls -/

/-- How the call fails with the built-in filters, whatever it is given; nothing if it does not. -/
def FilterCall.flaw? (call : FilterCall) : Option Failure :=
  if call.name ∉ Filters.builtinNames then some (.unknownFilter call.name)
  else if call.name = "default" ∧ call.arguments = [] then
    some (.filterFailed call.name "expects one argument")
  else none

/-- A call is flawed exactly if its filter is not built in or if it is `default` with nothing to
fall back on. -/
theorem FilterCall.isSome_flaw?_iff (call : FilterCall) :
    call.flaw?.isSome = true ↔
      call.name ∉ Filters.builtinNames ∨ (call.name = "default" ∧ call.arguments = []) := by
  unfold flaw?
  split
  · simp [*]
  · split <;> simp [*]

/-- A call without a flaw gives a value. -/
theorem FilterCall.exists_apply_builtin (context : Context) {input : Value} {call : FilterCall}
    (hflaw : call.flaw? = none) (hsize : input.size ≤ Number.greatest) :
    ∃ value, FilterCall.apply .builtin context input call = .ok value := by
  have hsound : ¬(call.name ∉ Filters.builtinNames ∨
      (call.name = "default" ∧ call.arguments = [])) := by
    rw [← call.isSome_flaw?_iff, hflaw]
    exact Bool.false_ne_true
  rw [not_or, Decidable.not_not] at hsound
  obtain ⟨hname, harguments⟩ := hsound
  by_cases hdefault : call.name = "default"
  · have hfind : Filters.builtin.find? call.name = some Filter.default := by
      rw [hdefault, Filters.find?_builtin_default]
    have hne : call.arguments.map (Operand.evaluate context) ≠ [] :=
      fun hnil ↦ harguments ⟨hdefault, List.map_eq_nil_iff.1 hnil⟩
    obtain ⟨value, hvalue⟩ := Filter.exists_default_eq_ok input hne
    exact ⟨value, by rw [apply_of_find?_eq_some hfind, hvalue]; rfl⟩
  · obtain ⟨filter, hfind, haccepts⟩ := Filters.exists_find?_builtin hname hdefault
    obtain ⟨value, hvalue⟩ := haccepts input (call.arguments.map (Operand.evaluate context)) hsize
    exact ⟨value, by rw [apply_of_find?_eq_some hfind, hvalue]; rfl⟩

/-- A flawed call fails for its flaw, whatever its input and its arguments are. -/
theorem FilterCall.apply_builtin_of_flaw? {context : Context} {input : Value} {call : FilterCall}
    {failure : Failure} (hflaw : call.flaw? = some failure) :
    FilterCall.apply .builtin context input call = .error failure := by
  unfold flaw? at hflaw
  split at hflaw
  · rename_i hname
    cases hflaw
    exact apply_of_find?_eq_none (Filters.find?_builtin_eq_none hname) context input
  split at hflaw
  · rename_i hdefault
    cases hflaw
    simp only [apply, hdefault, Filters.find?_builtin_default, List.map_nil, Filter.default]
  · cases hflaw

/-- On an input that can be counted, a call fails for its flaw and for nothing else. -/
theorem FilterCall.apply_builtin_eq_error_iff {context : Context} {input : Value}
    {call : FilterCall} {failure : Failure} (hsize : input.size ≤ Number.greatest) :
    FilterCall.apply .builtin context input call = .error failure ↔ call.flaw? = some failure := by
  constructor
  · intro happly
    cases hflaw : call.flaw? with
    | none =>
      obtain ⟨value, hvalue⟩ := exists_apply_builtin context hflaw hsize
      rw [hvalue] at happly
      cases happly
    | some other =>
      rw [apply_builtin_of_flaw? hflaw] at happly
      rw [Except.error.inj happly]
  · exact apply_builtin_of_flaw?

/-! ### Expressions -/

/-- The values that the filters of the expression are given, one after the other, are of a size
that an integer can hold. -/
def Expression.Sizable (filters : Filters) (context : Context) (expression : Expression) : Prop :=
  ∀ front value, front <+: expression.filters →
    (⟨expression.operand, front⟩ : Expression).evaluate filters context = .ok value →
    value.size ≤ Number.greatest

/-- The induction is on the calls. Where the first is not bound to fail it gives a value, and the
others go on from that. -/
theorem foldlM_apply_builtin_eq_error_iff {context : Context} {calls : List FilterCall}
    {value : Value} {failure : Failure}
    (hsizes : ∀ front result, front <+: calls →
      front.foldlM (FilterCall.apply .builtin context) value = .ok result →
      result.size ≤ Number.greatest) :
    calls.foldlM (FilterCall.apply .builtin context) value = .error failure ↔
      calls.findSome? FilterCall.flaw? = some failure := by
  induction calls generalizing value with
  | nil =>
    constructor
    · intro hfails
      cases hfails
    · intro hflaw
      cases hflaw
  | cons call calls ih =>
    have hsize : value.size ≤ Number.greatest := hsizes [] value List.nil_prefix rfl
    have hcall (other : Failure) :
        FilterCall.apply .builtin context value call = .error other ↔ call.flaw? = some other :=
      FilterCall.apply_builtin_eq_error_iff hsize
    rw [List.foldlM_cons, List.findSome?_cons]
    cases happly : FilterCall.apply .builtin context value call with
    | error other =>
      rw [(hcall other).1 happly]
      exact ⟨fun hfails ↦ congrArg some (Except.error.inj hfails),
        fun hflaw ↦ congrArg Except.error (Option.some.inj hflaw)⟩
    | ok next =>
      have hflaw : call.flaw? = none := by
        refine Option.eq_none_iff_forall_ne_some.2 fun other hother ↦ ?_
        rw [(hcall other).2 hother] at happly
        cases happly
      rw [hflaw]
      refine ih fun front result hfront hresult ↦ ?_
      refine hsizes (call :: front) result ((List.prefix_cons_inj call).2 hfront) ?_
      rw [List.foldlM_cons, happly]
      exact hresult

/-- An expression fails for the first flaw among its calls, and for nothing else. -/
theorem Expression.evaluate_builtin_eq_error_iff {context : Context} {expression : Expression}
    {failure : Failure} (hsizes : expression.Sizable .builtin context) :
    expression.evaluate .builtin context = .error failure ↔
      expression.filters.findSome? FilterCall.flaw? = some failure :=
  foldlM_apply_builtin_eq_error_iff hsizes

/-- With the built-in filters an expression fails exactly where one of its filters is not built in
or is `default` without an argument, and it fails as the first of these does. Two contexts thus
give the same failure, or both give a value. -/
theorem Compiled.evaluate_builtin (compiled : Compiled) (hbuiltin : compiled.filters = .builtin)
    (context : Context) (hsizes : compiled.expression.Sizable .builtin context) :
    ((∃ failure, compiled.evaluate context = .error failure) ↔
      ∃ call ∈ compiled.expression.filters,
        call.name ∉ Filters.builtinNames ∨ (call.name = "default" ∧ call.arguments = [])) ∧
    (∀ failure, compiled.evaluate context = .error failure ↔
      ∃ front call rest, compiled.expression.filters = front ++ call :: rest ∧
        (∀ earlier ∈ front, earlier.flaw? = none) ∧ call.flaw? = some failure) ∧
    ∀ other, compiled.expression.Sizable .builtin other →
      (∃ failure, compiled.evaluate context = .error failure ∧
        compiled.evaluate other = .error failure) ∨
      ∃ value another, compiled.evaluate context = .ok value ∧
        compiled.evaluate other = .ok another := by
  have hfails {situation : Context} (hsituation : compiled.expression.Sizable .builtin situation)
      (failure : Failure) : compiled.evaluate situation = .error failure ↔
        compiled.expression.filters.findSome? FilterCall.flaw? = some failure := by
    rw [Compiled.evaluate, hbuiltin]
    exact Expression.evaluate_builtin_eq_error_iff hsituation
  refine ⟨?_, fun failure ↦ ?_, fun other hother ↦ ?_⟩
  · simp only [hfails hsizes, ← Option.isSome_iff_exists, List.findSome?_isSome_iff,
      FilterCall.isSome_flaw?_iff]
  · rw [hfails hsizes, List.findSome?_eq_some_iff]
    constructor
    · rintro ⟨front, call, rest, hsplit, hcall, hfront⟩
      exact ⟨front, call, rest, hsplit, hfront, hcall⟩
    · rintro ⟨front, call, rest, hsplit, hfront, hcall⟩
      exact ⟨front, call, rest, hsplit, hcall, hfront⟩
  · cases hresult : compiled.evaluate context with
    | error failure =>
      exact Or.inl ⟨failure, rfl, (hfails hother failure).2 ((hfails hsizes failure).1 hresult)⟩
    | ok value =>
      right
      cases hanother : compiled.evaluate other with
      | error failure =>
        have hsame := (hfails hsizes failure).2 ((hfails hother failure).1 hanother)
        rw [hresult] at hsame
        cases hsame
      | ok another => exact ⟨value, another, rfl, rfl⟩

/-- A missing argument behind a filter that gives different values, and before an unknown name. -/
theorem Compiled.evaluate_builtin_default :
    (⟨.lookup ["name"], [⟨"length", []⟩, ⟨"default", []⟩, ⟨"shout", []⟩]⟩ :
      Expression).Sizable .builtin {} ∧
    (⟨.lookup ["name"], [⟨"length", []⟩, ⟨"default", []⟩, ⟨"shout", []⟩]⟩ :
      Expression).Sizable .builtin ⟨[("name", .text "Ann")]⟩ ∧
    (⟨0, "name|length|default|shout",
      ⟨.lookup ["name"], [⟨"length", []⟩, ⟨"default", []⟩, ⟨"shout", []⟩]⟩, .builtin⟩ :
      Compiled).evaluate {} = .error (.filterFailed "default" "expects one argument") ∧
    (⟨0, "name|length|default|shout",
      ⟨.lookup ["name"], [⟨"length", []⟩, ⟨"default", []⟩, ⟨"shout", []⟩]⟩, .builtin⟩ :
      Compiled).evaluate ⟨[("name", .text "Ann")]⟩ =
        .error (.filterFailed "default" "expects one argument") := by
  have hsizes (context : Context) (hname : ((context.follow? ["name"]).getD .null).size ≤ 3) :
      (⟨.lookup ["name"], [⟨"length", []⟩, ⟨"default", []⟩, ⟨"shout", []⟩]⟩ :
        Expression).Sizable .builtin context := by
    have hlength : FilterCall.apply .builtin context ((context.follow? ["name"]).getD .null)
        ⟨"length", []⟩ =
          .ok (.integer (Int64.ofNat ((context.follow? ["name"]).getD .null).size)) := by
      have hfind : Filters.builtin.find? "length" = some Filter.length := by
        simp [Filters.builtin, Filters.find?_register]
      rw [FilterCall.apply_of_find?_eq_some hfind, Filter.length,
        if_pos (Nat.le_trans hname (by decide))]
      rfl
    rintro front value ⟨rest, hrest⟩ hvalue
    rcases front with _ | ⟨first, _ | ⟨second, front⟩⟩
    · cases hvalue
      exact Nat.le_trans hname (by decide)
    · cases hrest
      rw [Expression.evaluate, List.foldlM_cons, Operand.evaluate, hlength] at hvalue
      cases hvalue
      exact Nat.zero_le _
    · obtain ⟨rfl, rfl, -⟩ : first = ⟨"length", []⟩ ∧ second = ⟨"default", []⟩ ∧ _ := by
        simpa using hrest
      rw [Expression.evaluate, List.foldlM_cons, Operand.evaluate, hlength] at hvalue
      cases hvalue
  have hfirst (context : Context) (hname : ((context.follow? ["name"]).getD .null).size ≤ 3) :=
    ((evaluate_builtin ⟨0, "name|length|default|shout", _, .builtin⟩ rfl context
      (hsizes context hname)).2.1 (.filterFailed "default" "expects one argument")).2
      ⟨[⟨"length", []⟩], ⟨"default", []⟩, [⟨"shout", []⟩], rfl, List.forall_mem_singleton.2 rfl,
        rfl⟩
  exact ⟨hsizes _ (by decide), hsizes _ (by decide), hfirst _ (by decide), hfirst _ (by decide)⟩

end Stencil
