import Stencil.Proofs.Compiler.Slot

/-!
Sessions. A session is what a program does with caches and compilers, one action after another: new
caches and compilers, copies of handles and of compilers, calls, and entries that are offered to a
cache without a call. Nothing is ever taken out of a session, so that its compilers are all that
there have been. Beside the store a session remembers its calls and the caches that were offered
entries.

Which compiler was the first to store under a key is told by the calls alone: a call stores what it
gives if its compiler has caching on and can read the source, and the first such call counts
(`Call.stores`, `Session.storer?`). What the caches hold is never asked. In a cache that was offered
nothing, every slot then has what the calls say: it is empty as long as none has stored in it, and
holds what it reads as, bound to the filters of the first that did, from then on
(`Session.Accounts`). Every action leaves this as it is (`Session.Sound.step`), and so it holds of
every session (`Session.sound_run`).
-/

set_option autoImplicit false
set_option relaxedAutoImplicit false

namespace Stencil

/-- A call of a compiler. -/
structure Call where
  compiler : Compiler
  source : String

namespace Call

/-- The slot that the call looks at. -/
def slot (call : Call) : Slot :=
  call.compiler.slot call.source

/-- Whether the call leaves an entry in its slot, unless there is one already: its compiler has
caching on and can read the source. -/
def stores (call : Call) : Bool :=
  call.compiler.options.caching && call.slot.scan.isOk

/-- A call stores exactly if its compiler has caching on and the source reads as an expression. -/
theorem stores_iff {call : Call} :
    call.stores = true ↔ call.compiler.options.caching = true ∧
      ∃ expression, Expression.scan call.compiler.options call.source = .ok expression := by
  rw [stores, Bool.and_eq_true, slot, Compiler.scan_slot]
  refine and_congr_right fun _ ↦ ?_
  cases Expression.scan call.compiler.options call.source with
  | error error => simp [Except.isOk, Except.toBool]
  | ok expression => simp [Except.isOk, Except.toBool]

end Call

/-- What a program can do. Handles and compilers are given by their places in the session, and an
action at a place that there is none at does nothing. -/
inductive Action where
  | newCache
  | copyHandle (handle : Nat)
  | handleOf (compiler : Nat)
  /-- A compiler with a cache of its own. -/
  | newCompiler (options : Options) (filters : Filters)
  | newCompilerWith (options : Options) (filters : Filters) (handle : Nat)
  | copyCompiler (compiler : Nat)
  | compile (compiler : Nat) (source : String)
  /-- An entry that is offered to a cache without a call. -/
  | insert (handle : Nat) (options : Options) (source : String) (compiled : Compiled)

/-- What a program has: the store, its handles and compilers, and the calls that it has made. -/
structure Session where
  store : Store := {}
  handles : List CacheId := []
  compilers : List Compiler := []
  calls : List Call := []
  /-- The caches that entries were offered to without a call. -/
  offered : List CacheId := []

namespace Session

/-- The session after a call. -/
def compile (session : Session) (compiler : Compiler) (source : String) : Session :=
  { session with
    store := (compiler.compile source session.store).2
    calls := session.calls ++ [⟨compiler, source⟩] }

/-- The session after an action. -/
def step (session : Session) : Action → Session
  | .newCache =>
    let (id, store) := session.store.newCache
    { session with store := store, handles := session.handles ++ [id] }
  | .copyHandle handle =>
    { session with handles := session.handles ++ session.handles[handle]?.toList }
  | .handleOf compiler =>
    { session with
      handles := session.handles ++ (session.compilers[compiler]?.map Compiler.cache).toList }
  | .newCompiler options filters =>
    let (compiler, store) := Compiler.create options filters session.store
    { session with store := store, compilers := session.compilers ++ [compiler] }
  | .newCompilerWith options filters handle =>
    { session with
      compilers := session.compilers ++
        (session.handles[handle]?.map (Compiler.mk options filters)).toList }
  | .copyCompiler compiler =>
    { session with compilers := session.compilers ++ session.compilers[compiler]?.toList }
  | .compile compiler source =>
    match session.compilers[compiler]? with
    | some compiler => session.compile compiler source
    | none => session
  | .insert handle options source compiled =>
    match session.handles[handle]? with
    | some id =>
      { session with
        store := (session.store.insert id options source compiled).2
        offered := session.offered ++ [id] }
    | none => session

/-- The session that the actions make, from the one without caches and compilers on. -/
def run (actions : List Action) : Session :=
  actions.foldl step {}

/-- The compiler whose call was the first to store in the slot. -/
def storer? (session : Session) (slot : Slot) : Option Compiler :=
  (session.calls.find? fun call ↦ call.stores && call.slot == slot).map Call.compiler

/-- A call counts behind all those before it. -/
theorem storer?_compile (session : Session) (compiler : Compiler) (source : String) (slot : Slot) :
    (session.compile compiler source).storer? slot =
      (session.storer? slot).or
        (if (Call.mk compiler source).stores && compiler.slot source == slot then some compiler
        else none) := by
  rw [storer?, compile, List.find?_append, Option.map_or, List.find?_singleton]
  refine congrArg (Option.or _) ?_
  rw [apply_ite (Option.map Call.compiler)]
  rfl

section Storer

variable {session : Session} {compiler : Compiler} {source : String} {slot : Slot}

/-- Whoever was the first to store in a slot remains so. -/
theorem storer?_compile_of_some {first : Compiler} (hfirst : session.storer? slot = some first)
    (compiler : Compiler) (source : String) :
    (session.compile compiler source).storer? slot = some first := by
  rw [storer?_compile, hfirst, Option.some_or]

/-- A call that stores nothing, or in another slot, does not count. -/
theorem storer?_compile_of_not_stores
    (hstores : ¬((Call.mk compiler source).stores = true ∧ compiler.slot source = slot)) :
    (session.compile compiler source).storer? slot = session.storer? slot := by
  rw [storer?_compile, if_neg, Option.or_none]
  rwa [Bool.and_eq_true, beq_iff_eq]

/-- Where no call has stored before, the one that does is the first. -/
theorem storer?_compile_of_stores (hnone : session.storer? (compiler.slot source) = none)
    (hstores : (Call.mk compiler source).stores = true) :
    (session.compile compiler source).storer? (compiler.slot source) = some compiler := by
  rw [storer?_compile, hnone, Option.none_or, hstores, beq_self_eq_true, Bool.true_and, if_pos rfl]

end Storer

/-- What a slot holds, told by the calls: nothing as long as none has stored in it, and then what it
reads as, bound to the filters of the compiler that was the first. -/
structure Accounts (session : Session) (slot : Slot) : Prop where
  storer_eq_none : session.store.kept? slot = none → session.storer? slot = none
  holds : ∀ compiled, session.store.kept? slot = some compiled → slot.Holds compiled
  exists_storer : ∀ compiled, session.store.kept? slot = some compiled →
    ∃ compiler, session.storer? slot = some compiler ∧ compiled.filters = compiler.filters

namespace Accounts

variable {session after : Session} {slot : Slot}

/-- Where neither the slot nor its first storer changes, the slot stays accounted for. -/
theorem of_eq (haccounts : session.Accounts slot)
    (hkept : after.store.kept? slot = session.store.kept? slot)
    (hstorer : after.storer? slot = session.storer? slot) : after.Accounts slot := by
  obtain ⟨hnone, hholds, hsome⟩ := haccounts
  constructor
  · rw [hkept, hstorer]
    exact hnone
  · rw [hkept]
    exact hholds
  · rw [hkept, hstorer]
    exact hsome

/-- A slot that has just been filled by the compiler that is the first to store in it. -/
theorem of_filled {compiler : Compiler} {compiled : Compiled}
    (hkept : session.store.kept? slot = some compiled) (hholds : slot.Holds compiled)
    (hstorer : session.storer? slot = some compiler)
    (hfilters : compiled.filters = compiler.filters) : session.Accounts slot := by
  constructor
  · intro hnone
    rw [hkept] at hnone
    cases hnone
  · intro found hfound
    rw [hkept] at hfound
    cases hfound
    exact hholds
  · intro found hfound
    rw [hkept] at hfound
    cases hfound
    exact ⟨compiler, hstorer, hfilters⟩

/-- A call leaves every slot accounted for. It finds an entry, so that its slot has a first storer
already; or it cannot read the source and does not store; or its slot is empty, so that no call has
stored there before, and this one does. -/
theorem compile (haccounts : session.Accounts slot) {compiler : Compiler}
    (hcache : compiler.cache.index < session.store.caches.size) (source : String) :
    (session.compile compiler source).Accounts slot := by
  by_cases hslot : compiler.options.caching = true ∧ slot = compiler.slot source
  · obtain ⟨hcaching, rfl⟩ := hslot
    rcases compiler.compile_cases source session.store with ⟨kept, -, hkept, heq⟩ |
      ⟨error, -, hscan, heq⟩ | ⟨compiled, later, heq, hmakes⟩
    · obtain ⟨first, hfirst, -⟩ := haccounts.exists_storer kept hkept
      refine haccounts.of_eq (congrArg (Store.kept? · _) (congrArg Prod.snd heq)) ?_
      rw [storer?_compile_of_some hfirst, hfirst]
    · refine haccounts.of_eq (congrArg (Store.kept? · _) (congrArg Prod.snd heq)) ?_
      refine storer?_compile_of_not_stores fun hstores ↦ ?_
      obtain ⟨-, expression, hread⟩ := Call.stores_iff.1 hstores.1
      rw [hscan] at hread
      cases hread
    · have hnone := haccounts.storer_eq_none (hmakes.misses hcaching)
      have hstores : (Call.mk compiler source).stores = true :=
        Call.stores_iff.2 ⟨hcaching, compiled.expression, hmakes.scan_eq⟩
      refine of_filled ?_ hmakes.holds (storer?_compile_of_stores hnone hstores) hmakes.filters_eq
      show (compiler.compile source session.store).2.kept? _ = some compiled
      rw [heq]
      exact Compiler.kept?_of_compile_eq hcaching hcache heq
  · -- The call looks at another slot, or at none.
    refine haccounts.of_eq (Compiler.kept?_compile_of_ne hslot session.store) ?_
    refine storer?_compile_of_not_stores fun hstores ↦ hslot ?_
    exact ⟨(Call.stores_iff.1 hstores.1).1, hstores.2.symm⟩

end Accounts

/-- What holds of every session: its handles and compilers name caches that there are, it calls no
compilers but its own, and the slots of caches that were offered nothing are accounted for. -/
structure Sound (session : Session) : Prop where
  handles_lt : ∀ id ∈ session.handles, id.index < session.store.caches.size
  compilers_lt : ∀ compiler ∈ session.compilers, compiler.cache.index < session.store.caches.size
  compiler_mem : ∀ call ∈ session.calls, call.compiler ∈ session.compilers
  accounts : ∀ slot, slot.cache ∉ session.offered → session.Accounts slot

/-- The session without caches and compilers is sound. -/
theorem Sound.empty : Sound {} := by
  refine ⟨by simp, by simp, by simp, fun slot _ ↦ ⟨fun _ ↦ rfl, ?_, ?_⟩⟩
  all_goals
    intro compiled hkept
    rw [Store.kept?_empty] at hkept
    cases hkept

/-- A call of one of its compilers leaves a session sound. -/
theorem Sound.compile {session : Session} (hsound : session.Sound) {compiler : Compiler}
    (hcompiler : compiler ∈ session.compilers) (source : String) :
    (session.compile compiler source).Sound := by
  have hsize := Compiler.size_caches_compile compiler source session.store
  constructor
  · intro id hid
    show id.index < (compiler.compile source session.store).2.caches.size
    rw [hsize]
    exact hsound.handles_lt id hid
  · intro other hother
    show other.cache.index < (compiler.compile source session.store).2.caches.size
    rw [hsize]
    exact hsound.compilers_lt other hother
  · intro call hcall
    rcases List.mem_append.1 hcall with hcall | hcall
    · exact hsound.compiler_mem call hcall
    · rw [List.mem_singleton.1 hcall]
      exact hcompiler
  · intro slot hslot
    exact (hsound.accounts slot hslot).compile (hsound.compilers_lt compiler hcompiler) source

/-- More handles and compilers, all of them to caches that there are, and entries offered to some
caches. -/
theorem Sound.extend {session : Session} (hsound : session.Sound) (store : Store)
    (handles : List CacheId) (compilers : List Compiler) (offered : List CacheId)
    (hsize : session.store.caches.size ≤ store.caches.size)
    (hhandles : ∀ id ∈ handles, id.index < store.caches.size)
    (hcompilers : ∀ compiler ∈ compilers, compiler.cache.index < store.caches.size)
    (hkept : ∀ slot, slot.cache ∉ offered → store.kept? slot = session.store.kept? slot) :
    Sound { session with
      store := store
      handles := session.handles ++ handles
      compilers := session.compilers ++ compilers
      offered := session.offered ++ offered } := by
  constructor
  · intro id hid
    rcases List.mem_append.1 hid with hid | hid
    · exact Nat.lt_of_lt_of_le (hsound.handles_lt id hid) hsize
    · exact hhandles id hid
  · intro compiler hcompiler
    rcases List.mem_append.1 hcompiler with hcompiler | hcompiler
    · exact Nat.lt_of_lt_of_le (hsound.compilers_lt compiler hcompiler) hsize
    · exact hcompilers compiler hcompiler
  · intro call hcall
    exact List.mem_append_left _ (hsound.compiler_mem call hcall)
  · intro slot hslot
    rw [List.mem_append, not_or] at hslot
    exact (hsound.accounts slot hslot.1).of_eq (hkept slot hslot.2) rfl

/-- More handles and compilers to caches that there are, and the store as it is. -/
theorem Sound.append {session : Session} (hsound : session.Sound) (handles : List CacheId)
    (compilers : List Compiler) (hhandles : ∀ id ∈ handles, id.index < session.store.caches.size)
    (hcompilers : ∀ compiler ∈ compilers, compiler.cache.index < session.store.caches.size) :
    Sound { session with
      handles := session.handles ++ handles
      compilers := session.compilers ++ compilers } := by
  have hextend := hsound.extend session.store handles compilers [] (Nat.le_refl _) hhandles
    hcompilers fun _ _ ↦ rfl
  rwa [List.append_nil] at hextend

/-- Every action leaves a session sound. -/
theorem Sound.step {session : Session} (hsound : session.Sound) (action : Action) :
    (session.step action).Sound := by
  have hnone {P : CacheId → Prop} : ∀ id ∈ ([] : List CacheId), P id := by simp
  have hnoCompiler {P : Compiler → Prop} : ∀ compiler ∈ ([] : List Compiler), P compiler := by simp
  cases action with
  | newCache =>
    have hextend := hsound.extend session.store.newCache.2 [session.store.newCache.1] [] []
      (by simp [Store.newCache]) (by simp [Store.newCache]) hnoCompiler
      fun slot _ ↦ Store.kept?_newCache session.store slot
    rwa [List.append_nil, List.append_nil] at hextend
  | copyHandle handle =>
    have hhandle : ∀ id ∈ session.handles[handle]?.toList,
        id.index < session.store.caches.size := by
      intro id hid
      exact hsound.handles_lt id (List.mem_of_getElem? (Option.mem_toList.1 hid))
    have happend := hsound.append session.handles[handle]?.toList [] hhandle hnoCompiler
    rwa [List.append_nil] at happend
  | handleOf compiler =>
    have hhandle : ∀ id ∈ (session.compilers[compiler]?.map Compiler.cache).toList,
        id.index < session.store.caches.size := by
      intro id hid
      obtain ⟨found, hfound, rfl⟩ := Option.map_eq_some_iff.1 (Option.mem_toList.1 hid)
      exact hsound.compilers_lt found (List.mem_of_getElem? hfound)
    have happend := hsound.append _ [] hhandle hnoCompiler
    rwa [List.append_nil] at happend
  | newCompiler options filters =>
    have hextend := hsound.extend session.store.newCache.2 []
      [(Compiler.create options filters session.store).1] []
      (by simp [Store.newCache]) hnone (by simp [Compiler.create, Store.newCache])
      fun slot _ ↦ Store.kept?_newCache session.store slot
    rwa [List.append_nil, List.append_nil] at hextend
  | newCompilerWith options filters handle =>
    have hcompiler : ∀ compiler ∈
        (session.handles[handle]?.map (Compiler.mk options filters)).toList,
        compiler.cache.index < session.store.caches.size := by
      intro compiler hcompiler
      obtain ⟨id, hid, rfl⟩ := Option.map_eq_some_iff.1 (Option.mem_toList.1 hcompiler)
      exact hsound.handles_lt id (List.mem_of_getElem? hid)
    have happend := hsound.append [] _ hnone hcompiler
    rwa [List.append_nil] at happend
  | copyCompiler compiler =>
    have hcompiler : ∀ other ∈ session.compilers[compiler]?.toList,
        other.cache.index < session.store.caches.size := by
      intro other hother
      exact hsound.compilers_lt other (List.mem_of_getElem? (Option.mem_toList.1 hother))
    have happend := hsound.append [] session.compilers[compiler]?.toList hnone hcompiler
    rwa [List.append_nil] at happend
  | compile compiler source =>
    simp only [Session.step]
    split
    · rename_i found hfound
      exact hsound.compile (List.mem_of_getElem? hfound) source
    · exact hsound
  | insert handle options source compiled =>
    simp only [Session.step]
    split
    · rename_i id hid
      have hextend := hsound.extend (session.store.insert id options source compiled).2 [] [] [id]
        (by simp [Store.insert]) hnone hnoCompiler fun slot hslot ↦ by
          rw [Store.kept?_insert, if_neg fun hsame ↦ hslot (by rw [hsame.2]; simp)]
      rwa [List.append_nil, List.append_nil] at hextend
    · exact hsound

/-- What holds of the empty session and survives every action holds of every session. -/
theorem sound_run (actions : List Action) : (run actions).Sound := by
  have hfold (session : Session) (hsound : session.Sound) :
      (actions.foldl Session.step session).Sound := by
    induction actions generalizing session with
    | nil => exact hsound
    | cons action actions ih => exact ih (session.step action) (hsound.step action)
  exact hfold {} Sound.empty

/-- In a session, caches that were offered nothing are faithful. -/
theorem Sound.faithful {session : Session} (hsound : session.Sound) {id : CacheId}
    (hid : id ∉ session.offered) : session.store.Faithful id := by
  rintro slot compiled rfl hkept
  exact (hsound.accounts slot hid).holds compiled hkept

end Session

end Stencil
