import Mathlib.Data.List.Basic
import Stencil.Proofs.Compiler.Session

/-!
Caching is transparent. Whatever a session has done before, a call gives the fault or the expression
that reading the source anew gives. What it gives is bound to the filters of the compiler whose call
was the first to store under the key, as the calls of the session tell it, and with caching on it is
what the cache holds under the key from then on (`Session.Bound`). Where all compilers of a cache
have the same filters, the value and the text of what is compiled are those that come without
caching (`Session.Transparent`). This holds in every session for every cache that entries enter
through calls only (`Session.transparent_run`).
-/

set_option autoImplicit false
set_option relaxedAutoImplicit false

namespace Stencil

/-! ### Filters that agree -/

/-- Registries that find the same filters give an expression the same value. -/
theorem Expression.evaluate_congr {filters others : Filters}
    (hsame : ∀ name, filters.find? name = others.find? name) (context : Context)
    (expression : Expression) :
    expression.evaluate filters context = expression.evaluate others context := by
  have happly : FilterCall.apply filters context = FilterCall.apply others context := by
    ext input call
    rw [FilterCall.apply, FilterCall.apply, hsame]
  rw [Expression.evaluate, Expression.evaluate, happly]

/-- Compiled expressions that were read as the same and find the same filters have the same
value. -/
theorem Compiled.evaluate_congr {compiled other : Compiled}
    (hexpression : compiled.expression = other.expression)
    (hsame : ∀ name, compiled.filters.find? name = other.filters.find? name) (context : Context) :
    compiled.evaluate context = other.evaluate context := by
  rw [Compiled.evaluate, Compiled.evaluate, hexpression, Expression.evaluate_congr hsame]

/-! ### Calls in a session -/

/-- The same compiler with caching off. -/
def Compiler.uncached (compiler : Compiler) : Compiler :=
  { compiler with options := { compiler.options with caching := false } }

/-- With caching off, a call gives what it reads, bound to its own filters. -/
theorem Compiler.exists_compile_uncached {compiler : Compiler} {source : String}
    {expression : Expression} (hscan : Expression.scan compiler.options source = .ok expression)
    (store : Store) :
    ∃ compiled, (compiler.uncached.compile source store).1 = .ok compiled ∧
      compiled.expression = expression ∧ compiled.filters = compiler.filters := by
  have hmiss : compiler.uncached.Misses source store := by
    intro hcaching
    cases hcaching
  have hread : Expression.scan compiler.uncached.options source = .ok expression := hscan
  obtain ⟨compiled, after, heq, hmakes⟩ := Compiler.makes_of_misses hmiss hread
  have hsame := hmakes.scan_eq
  rw [hread] at hsame
  exact ⟨compiled, by rw [heq], (Except.ok.inj hsame).symm, hmakes.filters_eq⟩

namespace Session

/-- What a call binds to: the filters of the compiler that was the first to store under its key,
which are its own where none has stored there before, and always with caching off. With caching on,
the cache holds what is given from then on. -/
structure Bound (session : Session) (compiler : Compiler) (source : String)
    (compiled : Compiled) : Prop where
  filters_of_first : ∀ first, compiler.options.caching = true →
    session.storer? (compiler.slot source) = some first → compiled.filters = first.filters
  filters_of_none : session.storer? (compiler.slot source) = none →
    compiled.filters = compiler.filters
  filters_of_uncached : compiler.options.caching = false → compiled.filters = compiler.filters
  kept : compiler.options.caching = true → compiler ∈ session.compilers →
    (session.compile compiler source).store.kept? (compiler.slot source) = some compiled

/-- All compilers of its cache find the filters that the compiler finds. -/
def Uniform (session : Session) (compiler : Compiler) : Prop :=
  ∀ other ∈ session.compilers, other.cache = compiler.cache →
    ∀ name, other.filters.find? name = compiler.filters.find? name

/-- A call gives the same as reading the source anew. -/
structure Transparent (session : Session) (compiler : Compiler) (source : String) : Prop where
  fault : ∀ error, Expression.scan compiler.options source = .error error →
    (compiler.compile source session.store).1 = .error (.malformed source error)
  exists_compiled : ∀ expression, Expression.scan compiler.options source = .ok expression →
    ∃ compiled, (compiler.compile source session.store).1 = .ok compiled ∧
      compiled.source = source ∧ compiled.expression = expression ∧
      session.Bound compiler source compiled
  evaluate_eq : session.Uniform compiler →
    ∀ context, (compiler.compile source session.store).1.bind (Compiled.evaluate · context) =
      (compiler.uncached.compile source session.store).1.bind (Compiled.evaluate · context)
  render_eq : session.Uniform compiler →
    ∀ context, (compiler.compile source session.store).1.bind (Compiled.render · context) =
      (compiler.uncached.compile source session.store).1.bind (Compiled.render · context)

variable {session : Session} {compiler : Compiler} {source : String}

/-- Who stored first in a slot is a compiler of the session and of the slot's cache. -/
theorem Sound.mem_of_storer?_eq_some (hsound : session.Sound) {slot : Slot}
    (hstorer : session.storer? slot = some compiler) :
    compiler ∈ session.compilers ∧ compiler.cache = slot.cache := by
  obtain ⟨call, hcall, rfl⟩ := Option.map_eq_some_iff.1 hstorer
  have hfound := List.find?_some hcall
  rw [Bool.and_eq_true, beq_iff_eq] at hfound
  obtain ⟨-, rfl⟩ := hfound
  exact ⟨hsound.compiler_mem call (List.mem_of_find?_eq_some hcall), rfl⟩

/-- What a call gives is bound to the filters of whoever was the first to store under the key. An
entry that it finds was stored by that one; and where it makes an instance with caching on, the slot
is empty, so that no call has stored there before. -/
theorem Sound.bound (hsound : session.Sound) (huntouched : compiler.cache ∉ session.offered)
    {compiled : Compiled} {after : Store}
    (hcompile : compiler.compile source session.store = (.ok compiled, after)) :
    session.Bound compiler source compiled := by
  have haccounts := hsound.accounts (compiler.slot source) huntouched
  have hkept (hcaching : compiler.options.caching = true) (hmem : compiler ∈ session.compilers) :
      (session.compile compiler source).store.kept? (compiler.slot source) = some compiled := by
    show (compiler.compile source session.store).2.kept? _ = some compiled
    rw [hcompile]
    exact Compiler.kept?_of_compile_eq hcaching (hsound.compilers_lt compiler hmem) hcompile
  rcases compiler.compile_cases source session.store with ⟨found, hcaching, hfound, heq⟩ |
    ⟨error, -, -, heq⟩ | ⟨made, other, heq, hmakes⟩
  · rw [hcompile] at heq
    cases heq
    obtain ⟨storer, hstorer, hfilters⟩ := haccounts.exists_storer compiled hfound
    refine ⟨fun first _ hfirst ↦ ?_, fun hnone ↦ ?_, fun huncached ↦ ?_, hkept⟩
    · rw [hstorer] at hfirst
      cases hfirst
      exact hfilters
    · rw [hstorer] at hnone
      cases hnone
    · rw [hcaching] at huncached
      cases huncached
  · rw [hcompile] at heq
    cases heq
  · rw [hcompile] at heq
    cases heq
    refine ⟨fun first hcaching hfirst ↦ ?_, fun _ ↦ hmakes.filters_eq, fun _ ↦ hmakes.filters_eq,
      hkept⟩
    rw [haccounts.storer_eq_none (hmakes.misses hcaching)] at hfirst
    cases hfirst

/-- A source that can be read is given as what it reads as, whatever the cache holds. -/
theorem Sound.exists_compiled (hsound : session.Sound)
    (huntouched : compiler.cache ∉ session.offered) {expression : Expression}
    (hscan : Expression.scan compiler.options source = .ok expression) :
    ∃ compiled, (compiler.compile source session.store).1 = .ok compiled ∧
      compiled.source = source ∧ compiled.expression = expression ∧
      session.Bound compiler source compiled := by
  obtain ⟨compiled, after, heq, hsource, hexpression⟩ :=
    Compiler.exists_compile_eq (hsound.faithful huntouched) hscan
  exact ⟨compiled, by rw [heq], hsource, hexpression, hsound.bound huntouched heq⟩

/-- Where all compilers of the cache have the same filters, it does not matter whose the bound ones
are. -/
theorem Bound.find?_filters (hsound : session.Sound) {compiled : Compiled}
    (hbound : session.Bound compiler source compiled) (huniform : session.Uniform compiler)
    (name : String) : compiled.filters.find? name = compiler.filters.find? name := by
  cases hcaching : compiler.options.caching with
  | false => rw [hbound.filters_of_uncached hcaching]
  | true =>
    cases hstorer : session.storer? (compiler.slot source) with
    | none => rw [hbound.filters_of_none hstorer]
    | some first =>
      obtain ⟨hmem, hcache⟩ := hsound.mem_of_storer?_eq_some hstorer
      rw [hbound.filters_of_first first hcaching hstorer]
      exact huniform first hmem hcache name

/-- In a sound session, calls on a cache that was offered nothing are transparent. -/
theorem Sound.transparent (hsound : session.Sound) (huntouched : compiler.cache ∉ session.offered)
    (source : String) : session.Transparent compiler source := by
  have hfaithful := hsound.faithful huntouched
  have hfault {error : ScanError}
      (hscan : Expression.scan compiler.options source = .error error) :
      (compiler.compile source session.store).1 = .error (.malformed source error) := by
    rw [Compiler.compile_of_scan_error hfaithful hscan]
  have hevaluate (huniform : session.Uniform compiler) (context : Context) :
      (compiler.compile source session.store).1.bind (Compiled.evaluate · context) =
        (compiler.uncached.compile source session.store).1.bind (Compiled.evaluate · context) := by
    cases hscan : Expression.scan compiler.options source with
    | error error =>
      have huncached : compiler.uncached.compile source session.store =
          (.error (.malformed source error), session.store) :=
        Compiler.compile_of_scan_error hfaithful hscan
      rw [hfault hscan, huncached]
    | ok expression =>
      obtain ⟨compiled, heq, -, hexpression, hbound⟩ := hsound.exists_compiled huntouched hscan
      obtain ⟨fresh, hfresh, hsame, hown⟩ :=
        Compiler.exists_compile_uncached hscan session.store
      rw [heq, hfresh]
      refine Compiled.evaluate_congr (hexpression.trans hsame.symm) (fun name ↦ ?_) context
      rw [hown, hbound.find?_filters hsound huniform]
  have hrender {result : Except Failure Compiled} (context : Context) :
      result.bind (Compiled.render · context) =
        (result.bind (Compiled.evaluate · context)).map Value.render := by
    cases result <;> rfl
  constructor
  · exact fun error ↦ hfault
  · exact fun expression ↦ hsound.exists_compiled huntouched
  · exact hevaluate
  · intro huniform context
    rw [hrender, hrender, hevaluate huniform]

/-- Whatever has been done before, a call gives what reading the source anew gives, as long as
entries enter the cache through calls only. -/
theorem transparent_run (actions : List Action) (compiler : Compiler) (source : String)
    (huntouched : compiler.cache ∉ (run actions).offered) :
    (run actions).Transparent compiler source :=
  (sound_run actions).transparent huntouched source

/-- Three compilers share a cache, the first of which has compiled a source. The second has no
filters, and the third reads in the other way. -/
def sharing : List Action :=
  [.newCache, .newCompilerWith {} .builtin 0, .newCompilerWith {} {} 0,
    .newCompilerWith { multipleArguments := false } .builtin 0, .compile 0 "name|replace:'a','b'"]

/-- The second compiler gets what the first one has stored, with the filters of that one and not
with its own; the third is told the fault that it finds itself. -/
theorem transparent_run_shared :
    (run sharing).compilers = [⟨{}, .builtin, ⟨0⟩⟩, ⟨{}, {}, ⟨0⟩⟩,
      ⟨{ multipleArguments := false }, .builtin, ⟨0⟩⟩] ∧
    (⟨0⟩ : CacheId) ∉ (run sharing).offered ∧
    (run sharing).Transparent ⟨{}, {}, ⟨0⟩⟩ "name|replace:'a','b'" ∧
    (run sharing).Transparent ⟨{ multipleArguments := false }, .builtin, ⟨0⟩⟩
      "name|replace:'a','b'" ∧
    (∃ compiled, ((⟨{}, {}, ⟨0⟩⟩ : Compiler).compile "name|replace:'a','b'"
        (run sharing).store).1 = .ok compiled ∧
      (compiled.filters.find? "join").isSome = true ∧ ({} : Filters).find? "join" = none) ∧
    ((⟨{ multipleArguments := false }, .builtin, ⟨0⟩⟩ : Compiler).compile "name|replace:'a','b'"
        (run sharing).store).1 =
      .error (.malformed "name|replace:'a','b'" (.located 16 (.unexpectedTerminator ','))) := by
  have huntouched : (⟨0⟩ : CacheId) ∉ (run sharing).offered := List.not_mem_nil
  have hsecond := transparent_run sharing ⟨{}, {}, ⟨0⟩⟩ "name|replace:'a','b'" huntouched
  have hthird := transparent_run sharing ⟨{ multipleArguments := false }, .builtin, ⟨0⟩⟩
    "name|replace:'a','b'" huntouched
  refine ⟨rfl, huntouched, hsecond, hthird, ?_, hthird.fault _ (by decide +kernel)⟩
  obtain ⟨compiled, hcompiled, -, -, hbound⟩ := hsecond.exists_compiled
    ⟨.lookup ["name"], [⟨"replace", [.text "a", .text "b"]⟩]⟩ (by decide +kernel)
  have hstores : (Call.mk ⟨{}, .builtin, ⟨0⟩⟩ "name|replace:'a','b'").stores = true := by
    decide +kernel
  have hstorer : (run sharing).storer? ⟨⟨0⟩, true, "name|replace:'a','b'"⟩ =
      some ⟨{}, .builtin, ⟨0⟩⟩ := by
    show ([(Call.mk ⟨{}, .builtin, ⟨0⟩⟩ "name|replace:'a','b'")].find? _).map Call.compiler = _
    rw [List.find?_cons_of_pos (by rw [hstores]; decide)]
    rfl
  refine ⟨compiled, hcompiled, ?_, rfl⟩
  rw [hbound.filters_of_first _ rfl hstorer]
  decide +kernel

end Session

end Stencil
