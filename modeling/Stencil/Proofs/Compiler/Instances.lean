import Stencil.Proofs.Compiler.WriteOnce

/-!
Instances in a cache. An instance is told by its serial number, and no two slots of a cache hold the
same one (`Store.Separate`), as long as entries enter the cache through calls only: a call fills a
slot with an instance that it makes, and what it makes has a serial number that was not given out
before. This holds of every cache of a session that was offered nothing
(`Session.separate_run`). With caching on, a call leaves what it gives in the slot of its source
(`Compiler.kept?_of_compile_eq`), so that for such a cache two calls give the same instance exactly
where their sources are equal.
-/

set_option autoImplicit false
set_option relaxedAutoImplicit false

namespace Stencil

/-- A cache without an instance in two of its slots, each of which has been made. -/
structure Store.Separate (store : Store) (id : CacheId) : Prop where
  serial_lt : ∀ slot kept, slot.cache = id → store.kept? slot = some kept →
    kept.serial < store.nextSerial
  slot_eq : ∀ slot other kept found, slot.cache = id → other.cache = id →
    store.kept? slot = some kept → store.kept? other = some found →
    kept.serial = found.serial → slot = other

namespace Store.Separate

variable {store after : Store} {id : CacheId}

theorem empty (id : CacheId) : ({} : Store).Separate id := by
  constructor
  · intro slot kept _ hkept
    rw [kept?_empty] at hkept
    cases hkept
  · intro slot other kept found _ _ hkept
    rw [kept?_empty] at hkept
    cases hkept

/-- Whatever happens outside of the cache leaves its instances apart. -/
theorem of_eq (hseparate : store.Separate id) (hserial : store.nextSerial ≤ after.nextSerial)
    (hkept : ∀ slot, slot.cache = id → after.kept? slot = store.kept? slot) :
    after.Separate id := by
  constructor
  · intro slot kept hslot hfound
    rw [hkept slot hslot] at hfound
    exact Nat.lt_of_lt_of_le (hseparate.serial_lt slot kept hslot hfound) hserial
  · intro slot other kept found hslot hother hfirst hsecond
    rw [hkept slot hslot] at hfirst
    rw [hkept other hother] at hsecond
    exact hseparate.slot_eq slot other kept found hslot hother hfirst hsecond

/-- An instance that has just been made is not in any other slot. -/
theorem fill (hseparate : store.Separate id) {slot : Slot} {made : Compiled}
    (hserial : made.serial = store.nextSerial) (hnext : after.nextSerial = store.nextSerial + 1)
    (hmade : after.kept? slot = some made)
    (hold : ∀ other, other ≠ slot → after.kept? other = store.kept? other) :
    after.Separate id := by
  have hlt (other : Slot) (kept : Compiled) (hother : other.cache = id) (hne : other ≠ slot)
      (hkept : after.kept? other = some kept) : kept.serial < made.serial := by
    rw [hold other hne] at hkept
    rw [hserial]
    exact hseparate.serial_lt other kept hother hkept
  constructor
  · intro other kept hother hkept
    by_cases hnew : other = slot
    · rw [hnew, hmade] at hkept
      cases hkept
      omega
    · have hbefore := hlt other kept hother hnew hkept
      omega
  · intro first second kept found hfirst hsecond hkept hfound hsame
    by_cases hnew : first = slot
    · by_cases hnewSecond : second = slot
      · rw [hnew, hnewSecond]
      · rw [hnew, hmade] at hkept
        cases hkept
        exact absurd hsame.symm (hlt second found hsecond hnewSecond hfound).ne
    · by_cases hnewSecond : second = slot
      · rw [hnewSecond, hmade] at hfound
        cases hfound
        exact absurd hsame (hlt first kept hfirst hnew hkept).ne
      · rw [hold first hnew] at hkept
        rw [hold second hnewSecond] at hfound
        exact hseparate.slot_eq first second kept found hfirst hsecond hkept hfound hsame

/-- A call leaves the instances apart, also where it makes one. -/
theorem compile (hseparate : store.Separate id) (compiler : Compiler) (source : String) :
    (compiler.compile source store).2.Separate id := by
  rcases compiler.compile_cases source store with ⟨kept, -, -, heq⟩ | ⟨error, -, -, heq⟩ |
    ⟨compiled, after, heq, hmakes⟩
  · rw [heq]
    exact hseparate
  · rw [heq]
    exact hseparate
  obtain ⟨hserial, hnext⟩ := Compiler.serial_of_misses hmakes.misses (by rw [heq])
  rw [heq] at hnext ⊢
  by_cases hstores : compiler.options.caching = true ∧ compiler.cache.index < store.caches.size
  · have hmade : after.kept? (compiler.slot source) = some compiled := by
      rw [hmakes.kept?_eq, if_pos ⟨hstores.1, hstores.2, rfl⟩]
    refine hseparate.fill hserial hnext hmade fun slot hne ↦ ?_
    rw [hmakes.kept?_eq, if_neg fun hsame ↦ hne hsame.2.2]
  · refine hseparate.of_eq (Nat.le_of_lt (hnext ▸ Nat.lt_succ_self _)) fun slot _ ↦ ?_
    rw [hmakes.kept?_eq, if_neg fun hsame ↦ hstores ⟨hsame.1, hsame.2.1⟩]

end Store.Separate

namespace Session

variable {session : Session} {id : CacheId}

/-- An action that offers nothing to the cache leaves its instances apart. -/
theorem separate_step (hseparate : session.store.Separate id) {action : Action}
    (huntouched : id ∉ (session.step action).offered) :
    (session.step action).store.Separate id := by
  have hnewCache : session.store.newCache.2.Separate id :=
    hseparate.of_eq (Nat.le_refl _) fun slot _ ↦ Store.kept?_newCache session.store slot
  cases action with
  | newCache => exact hnewCache
  | newCompiler options filters => exact hnewCache
  | copyHandle handle => exact hseparate
  | handleOf compiler => exact hseparate
  | newCompilerWith options filters handle => exact hseparate
  | copyCompiler compiler => exact hseparate
  | compile place source =>
    cases hcompiler : session.compilers[place]? with
    | none => simpa only [step, hcompiler] using hseparate
    | some compiler =>
      simp only [step, hcompiler]
      exact hseparate.compile compiler source
  | insert handle options source compiled =>
    cases hid : session.handles[handle]? with
    | none => simpa only [step, hid] using hseparate
    | some other =>
      simp only [step, hid] at huntouched ⊢
      have hother : id ≠ other := by
        rintro rfl
        exact huntouched (List.mem_append_right _ (List.mem_singleton.2 rfl))
      refine hseparate.of_eq (Nat.le_refl _) fun slot hslot ↦ ?_
      rw [Store.kept?_insert, if_neg]
      rintro ⟨-, rfl⟩
      exact hother hslot.symm

theorem offered_step_subset (session : Session) (action : Action) :
    session.offered ⊆ (session.step action).offered := by
  cases action with
  | compile place source =>
    simp only [step]
    split <;> exact List.Subset.refl _
  | insert handle options source compiled =>
    simp only [step]
    split
    · exact List.subset_append_left _ _
    · exact List.Subset.refl _
  | _ => exact List.Subset.refl _

/-- In a session, the instances in a cache that was offered nothing are apart. -/
theorem separate_run {actions : List Action} (huntouched : id ∉ (run actions).offered) :
    (run actions).store.Separate id := by
  induction actions using List.reverseRecOn with
  | nil => exact .empty id
  | append_singleton actions action ih =>
    rw [run_append, List.foldl_cons, List.foldl_nil] at huntouched ⊢
    exact separate_step (ih fun hid ↦ huntouched (offered_step_subset _ action hid)) huntouched

end Session

end Stencil
