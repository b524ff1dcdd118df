import Std.Data.TreeMap
import Stencil.Compiler.Compiled
import Stencil.Expression.Scan

/-!
Caches of compiled expressions, keyed by the exact source text. One text can denote different
expressions depending on whether a filter may take several arguments, so the two ways of reading
have shelves of their own. An entry is written once: a later one under the same key is refused in
favour of the first. Nothing is ever removed.
-/

set_option autoImplicit false
set_option relaxedAutoImplicit false

namespace Stencil

/-- Two shelves of entries by source, one for each way of reading. -/
structure Cache where
  /-- Read with one argument to a filter. -/
  single : Std.TreeMap String Compiled := ∅
  /-- Read with any number of arguments to a filter. -/
  multiple : Std.TreeMap String Compiled := ∅

namespace Cache

/-- The entries read in the way that the options ask for. -/
def shelf (cache : Cache) (options : Options) : Std.TreeMap String Compiled :=
  if options.multipleArguments then cache.multiple else cache.single

/-- The expression kept for the source. -/
def get? (cache : Cache) (options : Options) (source : String) : Option Compiled :=
  (cache.shelf options)[source]?

def contains (cache : Cache) (options : Options) (source : String) : Bool :=
  (cache.get? options source).isSome

/-- The cache with an entry for the source, which is the given one only if there was none. -/
def insertIfNew (cache : Cache) (options : Options) (source : String) (compiled : Compiled) :
    Cache :=
  if options.multipleArguments then
    { cache with multiple := cache.multiple.insertIfNew source compiled }
  else { cache with single := cache.single.insertIfNew source compiled }

/-- The number of entries on both shelves. -/
def size (cache : Cache) : Nat :=
  cache.single.size + cache.multiple.size

def isEmpty (cache : Cache) : Bool :=
  cache.size == 0

/-! ### What an offered entry changes -/

/-- On a shelf, the entry offered counts under its own key, and only if there was none. -/
theorem getElem?_insertIfNew_eq (shelf : Std.TreeMap String Compiled) (source key : String)
    (compiled : Compiled) :
    (shelf.insertIfNew source compiled)[key]? =
      if key = source then some (shelf[source]?.getD compiled) else shelf[key]? := by
  rw [Std.TreeMap.getElem?_insertIfNew]
  by_cases hkey : key = source
  · subst hkey
    by_cases hmem : key ∈ shelf <;> simp [hmem]
  · have hne : ¬compare source key = .eq := fun heq ↦
      hkey (Std.LawfulEqOrd.compare_eq_iff_eq.1 heq).symm
    simp [hkey, hne]

/-- An entry that is there stays, one that was not there is the one offered, and no other key
notices. -/
theorem get?_insertIfNew (cache : Cache) (options other : Options) (source key : String)
    (compiled : Compiled) :
    (cache.insertIfNew options source compiled).get? other key =
      if other.multipleArguments = options.multipleArguments ∧ key = source then
        some ((cache.get? options source).getD compiled)
      else cache.get? other key := by
  cases hoptions : options.multipleArguments <;> cases hother : other.multipleArguments <;>
    simp [insertIfNew, get?, shelf, hoptions, hother, getElem?_insertIfNew_eq]

end Cache

end Stencil
