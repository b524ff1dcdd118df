import Stencil.Compiler.Basic

/-!
What compiling does to a store. A store is seen as slots, each of which holds one entry at most: a
slot is a cache, a way of reading and a source, and `Store.kept?` is what it holds. Offering an
entry fills the slot that it is offered to, if that is empty, and no other (`Store.kept?_insert`). A
call of a compiler looks at one slot only. It gives what the slot holds, or reports why the source
cannot be read, or makes a new instance and leaves it in the slot where caching is on
(`Compiler.compile_cases`).
-/

set_option autoImplicit false
set_option relaxedAutoImplicit false

namespace Stencil

/-- A place for one entry: a cache, whether the entry is read with several arguments to a filter,
and the source that it is read from. -/
structure Slot where
  cache : CacheId
  multipleArguments : Bool
  source : String
deriving DecidableEq

namespace Slot

/-- The options that entries of the slot are read with. -/
def options (slot : Slot) : Options :=
  { multipleArguments := slot.multipleArguments }

/-- What the slot reads as. -/
def scan (slot : Slot) : Except ScanError Expression :=
  Expression.scan slot.options slot.source

end Slot

namespace Store

/-- The entry in a slot. -/
def kept? (store : Store) (slot : Slot) : Option Compiled :=
  store.get? slot.cache slot.options slot.source

theorem get?_eq_kept? (store : Store) (id : CacheId) (options : Options) (source : String) :
    store.get? id options source = store.kept? ⟨id, options.multipleArguments, source⟩ := rfl

theorem kept?_empty (slot : Slot) : ({} : Store).kept? slot = none := by
  simp [kept?, get?, cache, Cache.get?, Cache.shelf]

theorem kept?_newCompiled (store : Store) (source : String) (expression : Expression)
    (filters : Filters) (slot : Slot) :
    (store.newCompiled source expression filters).2.kept? slot = store.kept? slot := rfl

/-- A new cache has nothing in its slots, and the other slots keep what they hold. -/
theorem kept?_newCache (store : Store) (slot : Slot) :
    store.newCache.2.kept? slot = store.kept? slot := by
  rw [kept?, kept?, get?, get?, cache_newCache]

/-- Offering an entry fills the slot that it is offered to, if that is empty, and no other. -/
theorem kept?_insert (store : Store) (id : CacheId) (options : Options) (source : String)
    (compiled : Compiled) (slot : Slot) :
    (store.insert id options source compiled).2.kept? slot =
      if id.index < store.caches.size ∧ slot = ⟨id, options.multipleArguments, source⟩ then
        some ((store.get? id options source).getD compiled)
      else store.kept? slot := by
  obtain ⟨cache, multiple, key⟩ := slot
  rcases Nat.lt_or_ge id.index store.caches.size with hid | hid
  · rw [kept?, get?, cache_insert _ _ _ _ _ _ hid]
    by_cases hcache : cache = id
    · simp only [hcache, if_true, Cache.get?_insertIfNew, hid, true_and, Slot.mk.injEq]
      rfl
    · simp only [hcache, if_false, Slot.mk.injEq, false_and, and_false]
      rfl
  · rw [if_neg fun hslot ↦ Nat.not_lt.2 hid hslot.1]
    simp only [kept?, get?, Store.cache, insert, Array.getElem?_modify]
    split
    · rename_i hindex
      rw [← hindex, Array.getElem?_eq_none hid]
      rfl
    · rfl

end Store

namespace Compiler

/-- The slot that the compiler looks at for a source. -/
def slot (compiler : Compiler) (source : String) : Slot :=
  ⟨compiler.cache, compiler.options.multipleArguments, source⟩

theorem scan_slot (compiler : Compiler) (source : String) :
    (compiler.slot source).scan = Expression.scan compiler.options source := rfl

/-- A call that finds no entry. -/
def Misses (compiler : Compiler) (source : String) (store : Store) : Prop :=
  compiler.options.caching = true → store.kept? (compiler.slot source) = none

/-- A call that makes a new instance, with the store as it is afterwards. -/
structure Makes (compiler : Compiler) (source : String) (store : Store) (compiled : Compiled)
    (after : Store) : Prop where
  misses : compiler.Misses source store
  source_eq : compiled.source = source
  scan_eq : Expression.scan compiler.options source = .ok compiled.expression
  filters_eq : compiled.filters = compiler.filters
  size_eq : after.caches.size = store.caches.size
  kept?_eq : ∀ slot, after.kept? slot =
    if compiler.options.caching = true ∧ compiler.cache.index < store.caches.size ∧
        slot = compiler.slot source then some compiled
    else store.kept? slot

/-- A call that finds no entry makes an instance, if it can read the source. -/
theorem makes_of_misses {compiler : Compiler} {source : String} {store : Store}
    {expression : Expression} (hmiss : compiler.Misses source store)
    (hscan : Expression.scan compiler.options source = .ok expression) :
    ∃ compiled after, compiler.compile source store = (.ok compiled, after) ∧
      compiler.Makes source store compiled after := by
  have hnew : compiler.compileNew source store =
      (.ok (store.newCompiled source expression compiler.filters).1,
        (store.newCompiled source expression compiler.filters).2) := by
    rw [compileNew, hscan]
  unfold compile
  by_cases hcaching : compiler.options.caching = true
  · have hnone : store.get? compiler.cache compiler.options source = none := hmiss hcaching
    simp only [if_pos hcaching, hnone, hnew]
    generalize hmade : store.newCompiled source expression compiler.filters = made
    have hslot (slot : Slot) : made.2.kept? slot = store.kept? slot := by
      rw [← hmade, Store.kept?_newCompiled]
    have hfirst : (made.2.get? compiler.cache compiler.options source).getD made.1 = made.1 := by
      rw [Store.get?_eq_kept?, hslot, ← Store.get?_eq_kept?, hnone]
      rfl
    have hsize : made.2.caches.size = store.caches.size := by rw [← hmade]; rfl
    refine ⟨made.1, _, congrArg (fun kept ↦ (Except.ok kept, _)) hfirst, hmiss, ?_, ?_, ?_, ?_, ?_⟩
    · rw [← hmade]; rfl
    · rw [← hmade]; exact hscan
    · rw [← hmade]; rfl
    · rw [← hsize]; exact Array.size_modify
    · intro slot
      rw [Store.kept?_insert, hfirst, hslot, hsize]
      simp only [hcaching, true_and]
      rfl
  · rw [if_neg hcaching, hnew]
    refine ⟨_, _, rfl, hmiss, rfl, hscan, rfl, rfl, ?_⟩
    intro slot
    rw [if_neg fun hslot ↦ hcaching hslot.1]
    rfl

/-- What a call can do. -/
theorem compile_cases (compiler : Compiler) (source : String) (store : Store) :
    (∃ kept, compiler.options.caching = true ∧ store.kept? (compiler.slot source) = some kept ∧
      compiler.compile source store = (.ok kept, store)) ∨
    (∃ error, compiler.Misses source store ∧
      Expression.scan compiler.options source = .error error ∧
      compiler.compile source store = (.error (.malformed source error), store)) ∨
    ∃ compiled after, compiler.compile source store = (.ok compiled, after) ∧
      compiler.Makes source store compiled after := by
  by_cases hmiss : compiler.Misses source store
  · cases hscan : Expression.scan compiler.options source with
    | error error =>
      refine Or.inr (Or.inl ⟨error, hmiss, rfl, ?_⟩)
      have hnew : compiler.compileNew source store = (.error (.malformed source error), store) := by
        rw [compileNew, hscan]
      unfold compile
      by_cases hcaching : compiler.options.caching = true
      · have hnone : store.get? compiler.cache compiler.options source = none := hmiss hcaching
        simp only [if_pos hcaching, hnone, hnew]
      · rw [if_neg hcaching, hnew]
    | ok expression => exact Or.inr (Or.inr (makes_of_misses hmiss hscan))
  · rw [Misses, Classical.not_imp] at hmiss
    obtain ⟨hcaching, hsome⟩ := hmiss
    obtain ⟨kept, hkept⟩ := Option.ne_none_iff_exists'.1 hsome
    have hget : store.get? compiler.cache compiler.options source = some kept := hkept
    refine Or.inl ⟨kept, hcaching, hkept, ?_⟩
    rw [compile, if_pos hcaching, hget]

/-- A call changes the slot that it looks at, if caching is on, and nothing else. -/
theorem kept?_compile_of_ne {compiler : Compiler} {source : String} {slot : Slot}
    (hslot : ¬(compiler.options.caching = true ∧ slot = compiler.slot source)) (store : Store) :
    (compiler.compile source store).2.kept? slot = store.kept? slot := by
  rcases compile_cases compiler source store with ⟨kept, -, -, heq⟩ | ⟨error, -, -, heq⟩ |
    ⟨compiled, after, heq, hmakes⟩
  · rw [heq]
  · rw [heq]
  · rw [heq, hmakes.kept?_eq, if_neg fun hsame ↦ hslot ⟨hsame.1, hsame.2.2⟩]

/-- With caching on, a call leaves what it gives in the slot of its source. -/
theorem kept?_of_compile_eq {compiler : Compiler} {source : String} {store after : Store}
    {compiled : Compiled} (hcaching : compiler.options.caching = true)
    (hcache : compiler.cache.index < store.caches.size)
    (hcompile : compiler.compile source store = (.ok compiled, after)) :
    after.kept? (compiler.slot source) = some compiled := by
  rcases compiler.compile_cases source store with ⟨kept, -, hkept, heq⟩ | ⟨error, -, -, heq⟩ |
    ⟨made, later, heq, hmakes⟩
  · rw [hcompile] at heq
    cases heq
    exact hkept
  · rw [hcompile] at heq
    cases heq
  · rw [hcompile] at heq
    cases heq
    rw [hmakes.kept?_eq, if_pos ⟨hcaching, hcache, rfl⟩]

/-- A call makes no cache and removes none. -/
theorem size_caches_compile (compiler : Compiler) (source : String) (store : Store) :
    (compiler.compile source store).2.caches.size = store.caches.size := by
  rcases compile_cases compiler source store with ⟨kept, -, -, heq⟩ | ⟨error, -, -, heq⟩ |
    ⟨compiled, after, heq, hmakes⟩
  · rw [heq]
  · rw [heq]
  · rw [heq]
    exact hmakes.size_eq

end Compiler

/-! ### Faithful caches -/

/-- An entry that is what its slot reads as. -/
structure Slot.Holds (slot : Slot) (compiled : Compiled) : Prop where
  source_eq : compiled.source = slot.source
  scan_eq : slot.scan = .ok compiled.expression

/-- A cache whose entries all are what their slots read as. -/
def Store.Faithful (store : Store) (id : CacheId) : Prop :=
  ∀ slot compiled, slot.cache = id → store.kept? slot = some compiled → slot.Holds compiled

namespace Compiler

variable {compiler : Compiler} {source : String} {store : Store}

/-- What a call makes is what its slot reads as. -/
theorem Makes.holds {compiled : Compiled} {after : Store}
    (hmakes : compiler.Makes source store compiled after) :
    (compiler.slot source).Holds compiled :=
  ⟨hmakes.source_eq, hmakes.scan_eq⟩

/-- With a faithful cache, a source that cannot be read is reported, whatever the cache holds. -/
theorem compile_of_scan_error {error : ScanError} (hfaithful : store.Faithful compiler.cache)
    (hscan : Expression.scan compiler.options source = .error error) :
    compiler.compile source store = (.error (.malformed source error), store) := by
  rw [← scan_slot] at hscan
  rcases compile_cases compiler source store with ⟨kept, -, hkept, -⟩ | ⟨found, -, hfound, heq⟩ |
    ⟨compiled, after, -, hmakes⟩
  · have hread := (hfaithful _ kept rfl hkept).scan_eq
    rw [hscan] at hread
    cases hread
  · rw [← scan_slot, hscan] at hfound
    cases hfound
    exact heq
  · have hread := hmakes.holds.scan_eq
    rw [hscan] at hread
    cases hread

/-- With a faithful cache, a source that can be read is given as what it reads as, be it found or
made. -/
theorem exists_compile_eq {expression : Expression} (hfaithful : store.Faithful compiler.cache)
    (hscan : Expression.scan compiler.options source = .ok expression) :
    ∃ compiled after, compiler.compile source store = (.ok compiled, after) ∧
      compiled.source = source ∧ compiled.expression = expression := by
  have hread {compiled : Compiled} (hholds : (compiler.slot source).Holds compiled) :
      compiled.source = source ∧ compiled.expression = expression := by
    have hsame := hholds.scan_eq
    rw [scan_slot, hscan] at hsame
    exact ⟨hholds.source_eq, (Except.ok.inj hsame).symm⟩
  rcases compile_cases compiler source store with ⟨kept, -, hkept, heq⟩ | ⟨error, -, hfault, -⟩ |
    ⟨compiled, after, heq, hmakes⟩
  · exact ⟨kept, store, heq, hread (hfaithful _ kept rfl hkept)⟩
  · rw [hscan] at hfault
    cases hfault
  · exact ⟨compiled, after, heq, hread hmakes.holds⟩

end Compiler

/-- Compiling leaves faithful caches faithful, its own as well as all others. -/
theorem Store.Faithful.compile {store : Store} {id : CacheId} (hfaithful : store.Faithful id)
    (compiler : Compiler) (source : String) :
    (compiler.compile source store).2.Faithful id := by
  intro slot kept hid hkept
  rcases compiler.compile_cases source store with ⟨found, -, -, heq⟩ | ⟨error, -, -, heq⟩ |
    ⟨compiled, after, heq, hmakes⟩
  · rw [heq] at hkept
    exact hfaithful slot kept hid hkept
  · rw [heq] at hkept
    exact hfaithful slot kept hid hkept
  · rw [heq, hmakes.kept?_eq] at hkept
    split at hkept
    · rename_i hslot
      cases hkept
      rw [hslot.2.2]
      exact hmakes.holds
    · exact hfaithful slot kept hid hkept

end Stencil
