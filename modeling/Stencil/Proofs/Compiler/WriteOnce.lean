import Mathlib.Data.Finset.Card
import Stencil.Proofs.Compiler.Session

/-!
Entries are written once. Whatever is done in a session, an entry that a cache holds under a key is
what it holds under that key from then on: every look-up gives it, every entry that is offered is
refused in its favour, and every call with caching on gives it. An action stores under one key of
one cache at most (`Session.stores?`) and leaves all other keys and caches as they are
(`Session.kept?_step_of_ne`); a call that fails stores nothing, and neither does a call with caching
off, which makes an instance of its own (`Session.numbered_step`). The size of a cache is the number
of keys that were ever stored under in it (`Store.size_cache_eq_card`, `Session.isSome_kept?_run`).
All this is `Session.WriteOnce`, which holds of every session (`Session.writeOnce_run`).
-/

set_option autoImplicit false
set_option relaxedAutoImplicit false

namespace Stencil

/-! ### Filled slots -/

/-- The slots that are filled in a cache, given the handle to it. -/
def Cache.filled (cache : Cache) (id : CacheId) : List Slot :=
  cache.single.keys.map (Slot.mk id false) ++ cache.multiple.keys.map (Slot.mk id true)

theorem Cache.length_filled (cache : Cache) (id : CacheId) :
    (cache.filled id).length = cache.size := by
  simp only [filled, List.length_append, List.length_map, Std.TreeMap.length_keys, size]

theorem Cache.nodup_filled (cache : Cache) (id : CacheId) : (cache.filled id).Nodup := by
  have hinjective (multiple : Bool) : Function.Injective (Slot.mk id multiple) :=
    fun _ _ heq ↦ (Slot.mk.inj heq).2.2
  refine List.nodup_append.2 ⟨Std.TreeMap.nodup_keys.map (hinjective false),
    Std.TreeMap.nodup_keys.map (hinjective true), ?_⟩
  intro slot hslot other hother
  obtain ⟨source, -, rfl⟩ := List.mem_map.1 hslot
  obtain ⟨key, -, rfl⟩ := List.mem_map.1 hother
  simp

/-- The slots that are listed as filled are those in which there is an entry. -/
theorem Cache.mem_filled_iff (cache : Cache) (id : CacheId) (slot : Slot) :
    slot ∈ cache.filled id ↔
      (cache.get? slot.options slot.source).isSome = true ∧ slot.cache = id := by
  obtain ⟨handle, multiple, source⟩ := slot
  rw [get?, Std.TreeMap.isSome_getElem?_eq_contains, ← Std.TreeMap.mem_iff_contains]
  cases multiple <;> simp [filled, shelf, Slot.options, eq_comm]

namespace Store

/-- A cache has as many entries as slots of it are filled. -/
theorem size_cache_eq_card {store : Store} {id : CacheId} {slots : Finset Slot}
    (hslots : ∀ slot, slot ∈ slots ↔ (store.kept? slot).isSome = true ∧ slot.cache = id) :
    (store.cache id).size = slots.card := by
  have heq : slots = ((store.cache id).filled id).toFinset := by
    ext slot
    rw [hslots, List.mem_toFinset, Cache.mem_filled_iff]
    refine and_congr_left fun hcache ↦ ?_
    rw [kept?, get?, hcache]
  rw [heq, List.toFinset_card_of_nodup (Cache.nodup_filled _ _), Cache.length_filled]

/-- An entry stays where it is, whatever is offered. -/
theorem kept?_insert_of_some {store : Store} {slot : Slot} {kept : Compiled}
    (hkept : store.kept? slot = some kept) (id : CacheId) (options : Options) (source : String)
    (compiled : Compiled) : (store.insert id options source compiled).2.kept? slot = some kept := by
  rw [kept?_insert]
  split
  · rename_i hslot
    rw [get?_eq_kept?, ← hslot.2, hkept]
    rfl
  · exact hkept

end Store

/-! ### What a call stores -/

namespace Compiler

variable {compiler : Compiler} {source : String} {store : Store}

/-- With caching on, a call that finds an entry gives it and leaves the store alone. -/
theorem compile_of_kept {kept : Compiled} (hcaching : compiler.options.caching = true)
    (hkept : store.kept? (compiler.slot source) = some kept) :
    compiler.compile source store = (.ok kept, store) := by
  have hget : store.get? compiler.cache compiler.options source = some kept := hkept
  rw [compile, if_pos hcaching, hget]

/-- An entry stays where it is, whatever is compiled. -/
theorem kept?_compile_of_some {slot : Slot} {kept : Compiled} (compiler : Compiler)
    (source : String) (hkept : store.kept? slot = some kept) :
    (compiler.compile source store).2.kept? slot = some kept := by
  by_cases hslot : compiler.options.caching = true ∧ slot = compiler.slot source
  · obtain ⟨hcaching, rfl⟩ := hslot
    rw [compile_of_kept hcaching hkept]
    exact hkept
  · rw [kept?_compile_of_ne hslot, hkept]

/-- A call that fails leaves the store alone. -/
theorem snd_compile_of_error {failure : Failure}
    (hfails : (compiler.compile source store).1 = .error failure) :
    (compiler.compile source store).2 = store := by
  rcases compiler.compile_cases source store with ⟨kept, -, -, heq⟩ | ⟨error, -, -, heq⟩ |
    ⟨compiled, after, heq, -⟩
  · rw [heq]
  · rw [heq]
  · rw [heq] at hfails
    cases hfails

/-- What a call makes has the serial number that comes next. -/
theorem serial_of_misses {compiled : Compiled} (hmiss : compiler.Misses source store)
    (hok : (compiler.compile source store).1 = .ok compiled) :
    compiled.serial = store.nextSerial ∧
      (compiler.compile source store).2.nextSerial = store.nextSerial + 1 := by
  unfold compile at hok ⊢
  by_cases hcaching : compiler.options.caching = true
  · have hnone : store.get? compiler.cache compiler.options source = none := hmiss hcaching
    simp only [if_pos hcaching, hnone, compileNew] at hok ⊢
    cases hscan : Expression.scan compiler.options source with
    | error error =>
      rw [hscan] at hok
      cases hok
    | ok expression =>
      have hstill : (store.newCompiled source expression compiler.filters).2.get? compiler.cache
          compiler.options source = none := hnone
      simp only [hscan, Store.insert, hstill, Option.getD_none, Except.ok.injEq] at hok ⊢
      subst hok
      exact ⟨rfl, rfl⟩
  · simp only [if_neg hcaching, compileNew] at hok ⊢
    cases hscan : Expression.scan compiler.options source with
    | error error =>
      rw [hscan] at hok
      cases hok
    | ok expression =>
      simp only [hscan, Except.ok.injEq] at hok ⊢
      subst hok
      exact ⟨rfl, rfl⟩

/-- A call with caching off leaves all caches alone. -/
theorem caches_compile_of_not_caching (hcaching : compiler.options.caching = false) :
    (compiler.compile source store).2.caches = store.caches := by
  rw [compile, if_neg (by rw [hcaching]; decide), compileNew]
  cases Expression.scan compiler.options source with
  | error error => rfl
  | ok expression => rfl

end Compiler

/-- Every instance that a cache holds has been made: its serial number has been given out. -/
def Store.Numbered (store : Store) : Prop :=
  ∀ slot kept, store.kept? slot = some kept → kept.serial < store.nextSerial

/-- What a call leaves in a cache has a serial number that the call has given out. -/
theorem Store.Numbered.compile {store : Store} (hnumbered : store.Numbered) (compiler : Compiler)
    (source : String) : (compiler.compile source store).2.Numbered := by
  intro slot found hfound
  rcases compiler.compile_cases source store with ⟨kept, -, -, heq⟩ | ⟨error, -, -, heq⟩ |
    ⟨compiled, after, heq, hmakes⟩
  · rw [heq] at hfound ⊢
    exact hnumbered slot found hfound
  · rw [heq] at hfound ⊢
    exact hnumbered slot found hfound
  · obtain ⟨hserial, hnext⟩ := Compiler.serial_of_misses hmakes.misses (by rw [heq])
    rw [hnext]
    rw [heq, hmakes.kept?_eq] at hfound
    split at hfound
    · cases hfound
      rw [hserial]
      exact Nat.lt_succ_self _
    · exact Nat.lt_succ_of_lt (hnumbered slot found hfound)

theorem Store.Numbered.insert {store : Store} (hnumbered : store.Numbered) (id : CacheId)
    (options : Options) (source : String) {compiled : Compiled}
    (hcompiled : compiled.serial < store.nextSerial) :
    (store.insert id options source compiled).2.Numbered := by
  intro slot found hfound
  show found.serial < store.nextSerial
  rw [kept?_insert] at hfound
  split at hfound
  · cases hkept : store.get? id options source with
    | none =>
      rw [hkept] at hfound
      cases hfound
      exact hcompiled
    | some kept =>
      rw [hkept] at hfound
      cases hfound
      exact hnumbered ⟨id, options.multipleArguments, source⟩ kept hkept
  · exact hnumbered slot found hfound

namespace Session

/-! ### What an action stores -/

/-- The slot that an action stores in: the one that an entry is offered to, or the one that a call
with caching on looks at and does not fail. -/
def stores? (session : Session) : Action → Option Slot
  | .compile compiler source =>
    session.compilers[compiler]?.bind fun compiler ↦
      if compiler.options.caching && (compiler.compile source session.store).1.isOk then
        some (compiler.slot source)
      else none
  | .insert handle options source _ =>
    session.handles[handle]?.map fun id ↦ ⟨id, options.multipleArguments, source⟩
  | _ => none

/-- The slots that actions store in, one after the other. -/
def storedFrom (session : Session) : List Action → List Slot
  | [] => []
  | action :: rest => (session.stores? action).toList ++ (session.step action).storedFrom rest

/-- Every slot that was ever stored in. -/
def stored (actions : List Action) : List Slot :=
  storedFrom {} actions

variable {session : Session}

/-- An action leaves every slot alone but the one that it stores in. -/
theorem kept?_step_of_ne {action : Action} {slot : Slot}
    (hne : session.stores? action ≠ some slot) :
    (session.step action).store.kept? slot = session.store.kept? slot := by
  cases action with
  | newCache => exact Store.kept?_newCache session.store slot
  | newCompiler options filters => exact Store.kept?_newCache session.store slot
  | copyHandle handle => rfl
  | handleOf compiler => rfl
  | newCompilerWith options filters handle => rfl
  | copyCompiler compiler => rfl
  | compile place source =>
    cases hcompiler : session.compilers[place]? with
    | none => simp only [step, hcompiler]
    | some compiler =>
      simp only [stores?, hcompiler, Option.bind_some] at hne
      simp only [step, hcompiler]
      show (compiler.compile source session.store).2.kept? slot = _
      cases hresult : (compiler.compile source session.store).1 with
      | error failure => rw [Compiler.snd_compile_of_error hresult]
      | ok compiled =>
        refine Compiler.kept?_compile_of_ne (fun hslot ↦ hne ?_) session.store
        rw [hslot.1, hresult, hslot.2]
        rfl
  | insert handle options source compiled =>
    cases hid : session.handles[handle]? with
    | none => simp only [step, hid]
    | some id =>
      simp only [stores?, hid, Option.map_some, ne_eq, Option.some.injEq] at hne
      simp only [step, hid]
      rw [Store.kept?_insert, if_neg fun hslot ↦ hne hslot.2.symm]

/-- An entry stays where it is, whatever is done. -/
theorem kept?_step_of_some {slot : Slot} {kept : Compiled}
    (hkept : session.store.kept? slot = some kept) (action : Action) :
    (session.step action).store.kept? slot = some kept := by
  by_cases hstores : session.stores? action = some slot
  · cases action with
    | compile place source =>
      cases hcompiler : session.compilers[place]? with
      | none => simp only [step, hcompiler, hkept]
      | some compiler =>
        simp only [step, hcompiler]
        exact compiler.kept?_compile_of_some source hkept
    | insert handle options source compiled =>
      cases hid : session.handles[handle]? with
      | none => simp only [step, hid, hkept]
      | some id =>
        simp only [step, hid]
        exact Store.kept?_insert_of_some hkept id options source compiled
    | _ => cases hstores
  · rw [kept?_step_of_ne hstores, hkept]

/-- The slot that an action stores in is filled behind it. -/
theorem Sound.isSome_kept?_step (hsound : session.Sound) {action : Action} {slot : Slot}
    (hstores : session.stores? action = some slot) :
    ((session.step action).store.kept? slot).isSome = true := by
  cases action with
  | compile place source =>
    simp only [stores?, Option.bind_eq_some_iff, Option.ite_none_right_eq_some, Bool.and_eq_true,
      Option.some.injEq] at hstores
    obtain ⟨compiler, hcompiler, ⟨hcaching, hok⟩, rfl⟩ := hstores
    have hcache := hsound.compilers_lt compiler (List.mem_of_getElem? hcompiler)
    simp only [Session.step, hcompiler]
    cases hresult : (compiler.compile source session.store).1 with
    | error failure =>
      rw [hresult] at hok
      cases hok
    | ok compiled =>
      show ((compiler.compile source session.store).2.kept? _).isSome = true
      rw [Compiler.kept?_of_compile_eq hcaching hcache (Prod.ext hresult rfl)]
      rfl
  | insert handle options source compiled =>
    obtain ⟨id, hid, rfl⟩ := Option.map_eq_some_iff.1 hstores
    have hcache := hsound.handles_lt id (List.mem_of_getElem? hid)
    simp only [Session.step, hid]
    rw [Store.kept?_insert, if_pos ⟨hcache, rfl⟩]
    rfl
  | _ => cases hstores

/-! ### What a session has stored -/

theorem run_append (actions further : List Action) :
    run (actions ++ further) = further.foldl step (run actions) :=
  List.foldl_append

/-- An entry stays where it is, however the session goes on. -/
theorem kept?_run_append {actions : List Action} {slot : Slot} {kept : Compiled}
    (hkept : (run actions).store.kept? slot = some kept) (further : List Action) :
    (run (actions ++ further)).store.kept? slot = some kept := by
  rw [run_append]
  generalize run actions = session at hkept ⊢
  induction further generalizing session with
  | nil => exact hkept
  | cons action further ih => exact ih (session.step action) (kept?_step_of_some hkept action)

/-- The filled slots are those that were ever stored in. -/
theorem isSome_kept?_run (actions : List Action) (slot : Slot) :
    ((run actions).store.kept? slot).isSome = true ↔ slot ∈ stored actions := by
  have hfold (session : Session) (hsound : session.Sound) :
      ((actions.foldl step session).store.kept? slot).isSome = true ↔
        (session.store.kept? slot).isSome = true ∨ slot ∈ session.storedFrom actions := by
    induction actions generalizing session with
    | nil => simp [storedFrom]
    | cons action actions ih =>
      rw [List.foldl_cons, ih (session.step action) (hsound.step action), storedFrom,
        List.mem_append, Option.mem_toList, ← or_assoc]
      refine or_congr_left ?_
      constructor
      · intro hafter
        by_cases hstores : session.stores? action = some slot
        · exact Or.inr hstores
        · rw [kept?_step_of_ne hstores] at hafter
          exact Or.inl hafter
      · rintro (hbefore | hstores)
        · obtain ⟨kept, hkept⟩ := Option.isSome_iff_exists.1 hbefore
          rw [kept?_step_of_some hkept]
          rfl
        · exact hsound.isSome_kept?_step hstores
  rw [run, hfold {} Sound.empty, Store.kept?_empty, stored]
  simp

/-- Instances are offered to caches only after they have been made. -/
def OffersMade (actions : List Action) : Prop :=
  ∀ earlier later handle options source compiled,
    actions = earlier ++ .insert handle options source compiled :: later →
    compiled.serial < (run earlier).store.nextSerial

/-- Unless it offers an instance that was never made, an action leaves all instances numbered. -/
theorem numbered_step {action : Action} (hnumbered : session.store.Numbered)
    (hoffer : ∀ handle options source compiled, action = .insert handle options source compiled →
      compiled.serial < session.store.nextSerial) : (session.step action).store.Numbered := by
  have hnewCache : session.store.newCache.2.Numbered := by
    intro slot kept hkept
    rw [Store.kept?_newCache] at hkept
    exact hnumbered slot kept hkept
  cases action with
  | newCache => exact hnewCache
  | newCompiler options filters => exact hnewCache
  | copyHandle handle => exact hnumbered
  | handleOf compiler => exact hnumbered
  | newCompilerWith options filters handle => exact hnumbered
  | copyCompiler compiler => exact hnumbered
  | compile place source =>
    cases hcompiler : session.compilers[place]? with
    | none => simpa only [step, hcompiler] using hnumbered
    | some compiler =>
      simp only [step, hcompiler]
      exact hnumbered.compile compiler source
  | insert handle options source compiled =>
    cases hid : session.handles[handle]? with
    | none => simpa only [step, hid] using hnumbered
    | some id =>
      simp only [step, hid]
      exact hnumbered.insert id options source (hoffer handle options source compiled rfl)

/-- Where instances are made before they are offered, every cache holds such as have been made. -/
theorem OffersMade.numbered {actions : List Action} (hoffers : OffersMade actions) :
    (run actions).store.Numbered := by
  induction actions using List.reverseRecOn with
  | nil =>
    intro slot kept hkept
    rw [run, List.foldl_nil, Store.kept?_empty] at hkept
    cases hkept
  | append_singleton actions action ih =>
    have hbefore : (run actions).store.Numbered := by
      refine ih fun earlier later handle options source compiled hsplit ↦ ?_
      refine hoffers earlier (later ++ [action]) handle options source compiled ?_
      rw [hsplit, List.append_assoc, List.cons_append]
    rw [run_append, List.foldl_cons, List.foldl_nil]
    refine numbered_step hbefore fun handle options source compiled haction ↦ ?_
    exact hoffers actions [] handle options source compiled (by rw [haction])

/-- What is said of entries in the session that the actions make. -/
structure WriteOnce (actions : List Action) : Prop where
  /-- An entry that is found once is found from then on, whatever is done. -/
  get?_eq : ∀ {id options source kept}, (run actions).store.get? id options source = some kept →
    ∀ further other, other.multipleArguments = options.multipleArguments →
      (run (actions ++ further)).store.get? id other source = some kept
  /-- No entry that is offered takes its place, and the offer gives it back. -/
  insert_eq : ∀ {id options source kept}, (run actions).store.get? id options source = some kept →
    ∀ further other offered, other.multipleArguments = options.multipleArguments →
      ((run (actions ++ further)).store.insert id other source offered).1 = kept
  /-- Every call with caching on gives it. -/
  compile_eq : ∀ {id options source kept}, (run actions).store.get? id options source = some kept →
    ∀ further (compiler : Compiler), compiler.cache = id → compiler.options.caching = true →
      compiler.options.multipleArguments = options.multipleArguments →
      (compiler.compile source (run (actions ++ further)).store).1 = .ok kept
  /-- An action changes nothing but the slot that it stores in. -/
  kept?_eq : ∀ {action slot}, (run actions).stores? action ≠ some slot →
    (run (actions ++ [action])).store.kept? slot = (run actions).store.kept? slot
  /-- A call that fails changes nothing. -/
  failing : ∀ {compiler : Compiler} {source failure},
    (compiler.compile source (run actions).store).1 = .error failure →
    (compiler.compile source (run actions).store).2 = (run actions).store
  /-- A call with caching off changes no cache, and what it gives is in none. -/
  uncached : ∀ {compiler : Compiler} {source}, compiler.options.caching = false →
    (compiler.compile source (run actions).store).2.caches = (run actions).store.caches ∧
      (OffersMade actions → ∀ compiled slot kept,
        (compiler.compile source (run actions).store).1 = .ok compiled →
        (run actions).store.kept? slot = some kept → kept.serial ≠ compiled.serial)
  /-- A cache has as many entries as slots of it were ever stored in. -/
  size_eq : ∀ id, ((run actions).store.cache id).size =
    ((stored actions).toFinset.filter fun slot ↦ slot.cache = id).card

/-- In every session entries are written once, and no action reaches beyond its own slot. -/
theorem writeOnce_run (actions : List Action) : WriteOnce actions := by
  have hstays {id : CacheId} {options : Options} {source : String} {kept : Compiled}
      (hget : (run actions).store.get? id options source = some kept) (further : List Action)
      {other : Options} (hmode : other.multipleArguments = options.multipleArguments) :
      (run (actions ++ further)).store.get? id other source = some kept := by
    rw [Store.get?_eq_kept?] at hget ⊢
    rw [hmode]
    exact kept?_run_append hget further
  constructor
  · intro id options source kept hget further other hmode
    exact hstays hget further hmode
  · intro id options source kept hget further other offered hmode
    rw [Store.insert, hstays hget further hmode]
    rfl
  · rintro id options source kept hget further compiler rfl hcaching hmode
    rw [Compiler.compile_of_kept hcaching (hstays hget further hmode)]
  · intro action slot hne
    rw [run_append]
    exact kept?_step_of_ne hne
  · intro compiler source failure hfails
    exact Compiler.snd_compile_of_error hfails
  · intro compiler source hcaching
    refine ⟨Compiler.caches_compile_of_not_caching hcaching, ?_⟩
    intro hoffers compiled slot kept hok hkept
    have hmiss : compiler.Misses source (run actions).store := by
      intro habsurd
      rw [hcaching] at habsurd
      cases habsurd
    rw [(Compiler.serial_of_misses hmiss hok).1]
    exact Nat.ne_of_lt (hoffers.numbered slot kept hkept)
  · intro id
    refine Store.size_cache_eq_card fun slot ↦ ?_
    rw [Finset.mem_filter, List.mem_toFinset, isSome_kept?_run]

/-- An entry that is offered through another handle is refused. -/
theorem writeOnce_run_refused :
    ∃ kept, (run [.newCache, .copyHandle 0, .newCompilerWith {} .builtin 0,
        .compile 0 "name|upper"]).store.get? ⟨0⟩ {} "name|upper" = some kept ∧
      ∀ offered, ((run ([.newCache, .copyHandle 0, .newCompilerWith {} .builtin 0,
        .compile 0 "name|upper"] ++ [.insert 1 {} "name|upper" offered])).store.insert ⟨0⟩ {}
          "name|upper" offered).1 = kept := by
  have hsome : ((run [.newCache, .copyHandle 0, .newCompilerWith {} .builtin 0,
      .compile 0 "name|upper"]).store.get? ⟨0⟩ {} "name|upper").isSome = true := by decide +kernel
  obtain ⟨kept, hkept⟩ := Option.isSome_iff_exists.1 hsome
  exact ⟨kept, hkept, fun offered ↦ (writeOnce_run _).insert_eq hkept _ {} offered rfl⟩

end Session

end Stencil
