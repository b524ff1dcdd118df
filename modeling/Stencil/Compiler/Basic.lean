import Stencil.Compiler.Store
import Stencil.Filter.Builtin

/-!
Compilers. A compiler reads source texts with its options, binds what it read to its filters, and
keeps it in a cache that it may share with other compilers. With caching on, one text compiled
twice is one instance; a text that cannot be read leaves no trace.
-/

set_option autoImplicit false
set_option relaxedAutoImplicit false

namespace Stencil

/-- What a compiler reads with, what it binds to what it read, and where it keeps it. -/
structure Compiler where
  options : Options
  filters : Filters
  cache : CacheId

namespace Compiler

/-- A compiler with a cache of its own. -/
def create (options : Options) (filters : Filters) (store : Store) : Compiler × Store :=
  let (id, store) := store.newCache
  (⟨options, filters, id⟩, store)

/-- A compiler with every option on, the built-in filters and a cache of its own. -/
def createDefault (store : Store) : Compiler × Store :=
  create {} .builtin store

/-- Reads the source and makes a new instance of what it denotes. -/
def compileNew (compiler : Compiler) (source : String) (store : Store) :
    Except Failure Compiled × Store :=
  match Expression.scan compiler.options source with
  | .error error => (.error (.malformed source error), store)
  | .ok expression =>
    let (compiled, store) := store.newCompiled source expression compiler.filters
    (.ok compiled, store)

/-- The compiled expression of the source. -/
def compile (compiler : Compiler) (source : String) (store : Store) :
    Except Failure Compiled × Store :=
  if compiler.options.caching then
    match store.get? compiler.cache compiler.options source with
    | some compiled => (.ok compiled, store)
    | none =>
      match compiler.compileNew source store with
      | (.error failure, store) => (.error failure, store)
      | (.ok compiled, store) =>
        let (kept, store) := store.insert compiler.cache compiler.options source compiled
        (.ok kept, store)
  else compiler.compileNew source store

end Compiler

end Stencil
