import Stencil.Proofs.Compiler.Slot

/-!
What a series of calls adds to a store. Whether a source can be compiled is told by its slot and by
what it reads as (`Compiler.failure?`), and a call does what this says (`Compiler.compile_gains`). A
store gains entries for sources where the slots of these sources are filled, each with what the
source reads as, entries that were there stay, and every other slot is as it was
(`Compiler.Gains`). One series after another adds the sources of both (`Compiler.Gains.trans`), and
as entries for what can be compiled are all that is added, no series changes what can be compiled
(`Compiler.Gains.failure?_eq`).
-/

set_option autoImplicit false
set_option relaxedAutoImplicit false

namespace Stencil.Compiler

/-- Why the source cannot be compiled, if it cannot: no entry for it is found, and it does not
read as an expression. -/
def failure? (compiler : Compiler) (store : Store) (source : String) : Option Failure :=
  if compiler.options.caching && (store.kept? (compiler.slot source)).isSome then none
  else
    match Expression.scan compiler.options source with
    | .error error => some (.malformed source error)
    | .ok _ => none

theorem slot_mem_map_slot_iff {compiler : Compiler} {source : String} {sources : List String} :
    compiler.slot source ∈ sources.map compiler.slot ↔ source ∈ sources := by
  simp [slot]

/-- A store that has gained entries for the sources, where caching is on, and nothing else. -/
structure Gains (compiler : Compiler) (store : Store) (sources : List String) (after : Store) :
    Prop where
  size_eq : after.caches.size = store.caches.size
  kept?_of_some : ∀ slot kept, store.kept? slot = some kept → after.kept? slot = some kept
  kept?_of_not_mem : ∀ slot,
    ¬(compiler.options.caching = true ∧ slot ∈ sources.map compiler.slot) →
      after.kept? slot = store.kept? slot
  exists_kept : compiler.options.caching = true → ∀ source ∈ sources,
    store.kept? (compiler.slot source) = none →
      ∃ compiled, after.kept? (compiler.slot source) = some compiled ∧
        (compiler.slot source).Holds compiled ∧ compiled.filters = compiler.filters

namespace Gains

variable {compiler : Compiler} {store middle after : Store} {sources others : List String}

theorem refl (compiler : Compiler) (store : Store) : compiler.Gains store [] store := by
  refine ⟨rfl, fun slot kept hkept ↦ hkept, fun slot _ ↦ rfl, ?_⟩
  intro _ source hsource
  cases hsource

/-- A slot that has been filled is one of the sources' slots. -/
theorem mem_of_kept? (hgains : compiler.Gains store sources after) {slot : Slot}
    {compiled : Compiled} (hnone : store.kept? slot = none)
    (hkept : after.kept? slot = some compiled) : slot ∈ sources.map compiler.slot := by
  refine Decidable.byContradiction fun habsent ↦ ?_
  rw [hgains.kept?_of_not_mem slot fun hslot ↦ habsent hslot.2, hnone] at hkept
  cases hkept

/-- A series of calls behind another makes one series. -/
theorem trans (hfirst : compiler.Gains store sources middle)
    (hsecond : compiler.Gains middle others after) :
    compiler.Gains store (sources ++ others) after := by
  constructor
  · exact hsecond.size_eq.trans hfirst.size_eq
  · intro slot kept hkept
    exact hsecond.kept?_of_some slot kept (hfirst.kept?_of_some slot kept hkept)
  · intro slot hslot
    rw [List.map_append, List.mem_append, and_or_left, not_or] at hslot
    rw [hsecond.kept?_of_not_mem slot hslot.2, hfirst.kept?_of_not_mem slot hslot.1]
  · intro hcaching source hsource hnone
    cases hmiddle : middle.kept? (compiler.slot source) with
    | none =>
      have hother : source ∈ others := by
        rcases List.mem_append.1 hsource with hmem | hmem
        · obtain ⟨compiled, hkept, -⟩ := hfirst.exists_kept hcaching source hmem hnone
          rw [hmiddle] at hkept
          cases hkept
        · exact hmem
      exact hsecond.exists_kept hcaching source hother hmiddle
    | some compiled =>
      have hmem := slot_mem_map_slot_iff.1 (hfirst.mem_of_kept? hnone hmiddle)
      obtain ⟨found, hkept, hholds, hfilters⟩ := hfirst.exists_kept hcaching source hmem hnone
      exact ⟨found, hsecond.kept?_of_some _ found hkept, hholds, hfilters⟩

/-- What can be compiled is the same before and after. -/
theorem failure?_eq (hgains : compiler.Gains store sources after) :
    compiler.failure? after = compiler.failure? store := by
  funext source
  by_cases hslot : compiler.options.caching = true ∧
      compiler.slot source ∈ sources.map compiler.slot
  · obtain ⟨hcaching, hmem⟩ := hslot
    cases hkept : store.kept? (compiler.slot source) with
    | some kept => simp [failure?, hcaching, hkept, hgains.kept?_of_some _ kept hkept]
    | none =>
      obtain ⟨compiled, hfilled, hholds, -⟩ :=
        hgains.exists_kept hcaching source (slot_mem_map_slot_iff.1 hmem) hkept
      have hscan : Expression.scan compiler.options source = .ok compiled.expression :=
        hholds.scan_eq
      simp [failure?, hcaching, hkept, hfilled, hscan]
  · rw [failure?, failure?, hgains.kept?_of_not_mem _ hslot]

end Gains

variable {compiler : Compiler} {store : Store} {source : String}

/-- A call that finds an entry does not fail, even if the source cannot be read. -/
theorem failure?_eq_none_of_kept (hcaching : compiler.options.caching = true) {kept : Compiled}
    (hkept : store.kept? (compiler.slot source) = some kept) :
    compiler.failure? store source = none := by
  rw [failure?, hcaching, hkept]
  rfl

/-- A call that finds no entry fails as reading the source does. -/
theorem failure?_of_misses (hmiss : compiler.Misses source store) :
    compiler.failure? store source =
      match Expression.scan compiler.options source with
      | .error error => some (.malformed source error)
      | .ok _ => none := by
  refine if_neg fun hfound ↦ ?_
  rw [Bool.and_eq_true] at hfound
  rw [hmiss hfound.1] at hfound
  cases hfound.2

/-- A call gives what it should, and the store gains an entry for the source if it does not fail. -/
theorem compile_gains (hcache : compiler.cache.index < store.caches.size) (source : String) :
    match compiler.failure? store source with
    | some failure => compiler.compile source store = (.error failure, store)
    | none => ∃ compiled after, compiler.compile source store = (.ok compiled, after) ∧
        compiler.Gains store [source] after := by
  rcases compiler.compile_cases source store with ⟨kept, hcaching, hkept, heq⟩ |
    ⟨error, hmiss, hscan, heq⟩ | ⟨compiled, after, heq, hmakes⟩
  · rw [failure?_eq_none_of_kept hcaching hkept]
    refine ⟨kept, store, heq, rfl, fun slot found hfound ↦ hfound, fun slot _ ↦ rfl, ?_⟩
    intro _ other hother hnone
    rw [List.mem_singleton.1 hother, hkept] at hnone
    cases hnone
  · rw [failure?_of_misses hmiss, hscan]
    exact heq
  · rw [failure?_of_misses hmakes.misses, hmakes.scan_eq]
    refine ⟨compiled, after, heq, hmakes.size_eq, ?_, ?_, ?_⟩
    · intro slot kept hkept
      rw [hmakes.kept?_eq, if_neg, hkept]
      rintro ⟨hcaching, -, rfl⟩
      rw [hmakes.misses hcaching] at hkept
      cases hkept
    · intro slot hslot
      rw [hmakes.kept?_eq, if_neg]
      rintro ⟨hcaching, -, hsame⟩
      exact hslot ⟨hcaching, List.mem_singleton.2 hsame⟩
    · intro hcaching other hother _
      obtain rfl := List.mem_singleton.1 hother
      refine ⟨compiled, ?_, hmakes.holds, hmakes.filters_eq⟩
      rw [hmakes.kept?_eq, if_pos ⟨hcaching, hcache, rfl⟩]

end Stencil.Compiler
