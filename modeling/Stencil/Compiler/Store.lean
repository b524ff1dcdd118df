import Stencil.Compiler.Cache

/-!
The store that compilers share: numbered caches, and the serial number for the next compiled
expression. A cache is named by its number, so that copies of the number are handles to the same
cache.
-/

set_option autoImplicit false
set_option relaxedAutoImplicit false

namespace Stencil

/-- A handle to a cache of a store. -/
structure CacheId where
  index : Nat
deriving DecidableEq

/-- All caches there are, and the next serial number. -/
structure Store where
  nextSerial : Nat := 0
  caches : Array Cache := #[]

namespace Store

/-- The store with one more cache, which is empty, and a handle to it. -/
def newCache (store : Store) : CacheId × Store :=
  (⟨store.caches.size⟩, { store with caches := store.caches.push {} })

/-- The cache behind a handle; a handle to none reads as an empty cache. -/
def cache (store : Store) (id : CacheId) : Cache :=
  store.caches[id.index]?.getD {}

/-- The entry under the key. -/
def get? (store : Store) (id : CacheId) (options : Options) (source : String) : Option Compiled :=
  (store.cache id).get? options source

/-- Offers an entry to a cache, and gives the entry that the cache holds from then on. Behind a
handle to none nothing is kept. -/
def insert (store : Store) (id : CacheId) (options : Options) (source : String)
    (compiled : Compiled) : Compiled × Store :=
  ((store.get? id options source).getD compiled,
    { store with
      caches := store.caches.modify id.index (·.insertIfNew options source compiled) })

/-- An instance of the expression that no one holds yet. -/
def newCompiled (store : Store) (source : String) (expression : Expression) (filters : Filters) :
    Compiled × Store :=
  (⟨store.nextSerial, source, expression, filters⟩,
    { store with nextSerial := store.nextSerial + 1 })

/-- A new cache is empty, as a handle to no cache reads already, and the other caches are what they
were. -/
theorem cache_newCache (store : Store) (id : CacheId) :
    store.newCache.2.cache id = store.cache id := by
  simp only [cache, newCache, Array.getElem?_push]
  split
  · rename_i hindex
    simp [hindex]
  · rfl

/-- What is offered to one cache is seen through every handle to it and through no other. -/
theorem cache_insert (store : Store) (id other : CacheId) (options : Options) (source : String)
    (compiled : Compiled) (hid : id.index < store.caches.size) :
    (store.insert id options source compiled).2.cache other =
      if other = id then (store.cache id).insertIfNew options source compiled
      else store.cache other := by
  simp only [cache, insert, Array.getElem?_modify]
  by_cases hother : other = id
  · subst hother
    simp [hid]
  · have hne : ¬id.index = other.index := fun hindex ↦ hother (by cases other; cases id; simp_all)
    simp [hne, hother]

end Store

end Stencil
