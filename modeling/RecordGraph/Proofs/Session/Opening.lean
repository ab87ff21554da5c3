import RecordGraph.Proofs.Registry.Refresh
import RecordGraph.Proofs.Session.Growth
import RecordGraph.Session.Operations

/-!
Opening sessions.  A session with a new registry knows every visible class as it is, works in a loaded
database if in any, and has no objects yet.
-/

namespace RecordGraph

open RecordGraph.Computation

theorem SessionCache.get?_init (c : SessionCache) (a b id : String) :
    (c.init a).get? b id = c.get? b id := by
  simp only [init, get?, index, OrderedMap.get?_insertNew]
  by_cases h : b = a
  · subst h
    cases hindex : c.indexes.get? b <;> simp
  · simp [h]

theorem SessionCache.get?_foldl_init (c : SessionCache) (names : List String) (b id : String) :
    (names.foldl SessionCache.init c).get? b id = c.get? b id := by
  induction names generalizing c with
  | nil => rfl
  | cons a names ih => rw [List.foldl_cons, ih, get?_init]

namespace Session

open Workspace

variable {s t : Workspace} {v w : World} {options : Options} {session : Session}

/-- What holds in every session: its types have the schemas of their classes, and its active database
is loaded. -/
structure Ready (s : Workspace) : Prop where
  consistent : s.registry.Consistent
  active : ∀ place, s.session.active = some place → place ∈ s.world.store.loaded

/-- Refreshing a session. -/
theorem refresh_run {added : List ClassType} (hcurrent : s.registry.Current s.world.store.hierarchy)
    (hr : s.session.registry.index < s.world.registries.size)
    (hrun : refresh s = (.ok added, t)) :
    s.world.ChangesOnly s.session.registry t.world
      ∧ t.session = { s.session with cache := t.session.cache }
      ∧ t.registry.Current s.world.store.hierarchy ∧ t.registry.Complete s.world.store.hierarchy
      ∧ ∀ className id, t.cached? className id = s.cached? className id := by
  rw [refresh, bind_of_ok (get_apply s)] at hrun
  obtain ⟨added', s₁, hact, hrun⟩ := bind_eq_ok.mp hrun
  obtain ⟨hworld, hs₁⟩ := act_eq_ok hact
  obtain ⟨_, s₂, hcache, hpure⟩ := bind_eq_ok.mp hrun
  rw [modify_apply] at hcache
  obtain ⟨-, rfl⟩ := Prod.mk.inj hcache
  obtain ⟨-, rfl⟩ := Prod.mk.inj hpure
  obtain ⟨hchanges, hnext, hcomplete, -⟩ := RegistryId.refresh_run hcurrent hr hworld
  have hsession : s₁.session = s.session := by rw [hs₁]
  unfold Workspace.registry Workspace.cached?
  rw [hsession]
  exact ⟨hchanges, rfl, hnext, hcomplete, fun className id => SessionCache.get?_foldl_init _ _ _ _⟩

/-! ### Opening -/

/-- Opening a session once its registry and its active database are settled. -/
def opening (policy : Policy) (registry : RegistryId) (active : Option String) : Action Session :=
  fun w =>
    let (result, s) := refresh ⟨{ registry, policy, active }, w⟩
    (result.map fun _ => s.session, s.world)

theorem opening_eq_ok {policy : Policy} {r : RegistryId} {active : Option String} :
    opening policy r active v = (.ok session, w)
      ↔ ∃ added, refresh ⟨{ registry := r, policy, active }, v⟩ = (.ok added, ⟨session, w⟩) := by
  rw [opening]
  rcases refresh ⟨{ registry := r, policy, active }, v⟩ with ⟨e | added, t⟩
  · simp [Except.map]
  · constructor
    · intro h
      obtain ⟨hsession, rfl⟩ := Prod.mk.inj h
      obtain rfl : t.session = session := Except.ok.inj hsession
      exact ⟨added, rfl⟩
    · rintro ⟨_, h⟩
      obtain ⟨-, rfl⟩ := Prod.mk.inj h
      rfl

theorem opening_apply (shared : Option RegistryId) (policy : Policy) (active : Option String)
    (v : World) :
    (match shared with
      | some r => do
        let registry ← pure r
        opening policy registry active
      | none => do
        let registry ← Action.newRegistry
        opening policy registry active : Action Session) v
      = match shared with
        | some r => opening policy r active v
        | none => opening policy ⟨v.registries.size⟩ active (v.addRegistry {} []) := by
  cases shared with
  | some r => exact bind_of_ok (pure_apply r v)
  | none => exact bind_of_ok (Action.newRegistry_apply v)

/-- Opening with an active database that is loaded, if one is given. -/
theorem openWith_eq
    (hactive : ∀ name, options.active = some name → v.store.loaded.contains name = true) :
    openWith options v = match options.registry with
      | some r => opening options.policy r (options.active.or v.store.loaded.head?) v
      | none => opening options.policy ⟨v.registries.size⟩ (options.active.or v.store.loaded.head?)
          (v.addRegistry {} []) := by
  simp only [openWith, bind_of_ok (get_apply v)]
  cases hoption : options.active with
  | some name =>
    dsimp only
    rw [if_pos (hactive name hoption), bind_of_ok (pure_apply (some name) v)]
    exact opening_apply options.registry options.policy (some name) v
  | none =>
    dsimp only
    rw [bind_of_ok (pure_apply v.store.loaded.head? v)]
    exact opening_apply options.registry options.policy v.store.loaded.head? v

/-- Opening fails without an effect where a database is given that is not loaded. -/
theorem openWith_of_not_loaded {name : String} (hactive : options.active = some name)
    (hname : ¬ v.store.loaded.contains name = true) :
    openWith options v = (.error (notLoaded name), v) := by
  simp only [openWith, bind_of_ok (get_apply v), hactive]
  rw [if_neg hname, bind_of_error (throw_apply (notLoaded name) v)]

theorem loaded_of_openWith (hrun : openWith options v = (.ok session, w)) (name : String)
    (hactive : options.active = some name) : v.store.loaded.contains name = true := by
  refine Decidable.byContradiction fun hmissing => ?_
  rw [openWith_of_not_loaded hactive hmissing] at hrun
  cases (Prod.mk.inj hrun).1

/-- What a session is like right after it was opened with a new registry. -/
structure Opened (v w : World) (session : Session) : Prop where
  store : w.store = v.store
  objects : w.objects = v.objects
  ready : Ready ⟨session, w⟩
  current : (Workspace.registry ⟨session, w⟩).Current w.store.hierarchy
  complete : (Workspace.registry ⟨session, w⟩).Complete w.store.hierarchy
  cached : ∀ className id, Workspace.cached? ⟨session, w⟩ className id = none

theorem opened_of_opening {policy : Policy} {active : Option String}
    (hactive : ∀ place, active = some place → place ∈ v.store.loaded)
    (hrun : opening policy ⟨v.registries.size⟩ active (v.addRegistry {} []) = (.ok session, w)) :
    Opened v w session := by
  obtain ⟨added, hrefresh⟩ := opening_eq_ok.mp hrun
  obtain ⟨hchanges, hsession, hcurrent, hcomplete, hcached⟩ := refresh_run
    (by rw [Workspace.registry, World.registry_addRegistry]; exact Registry.current_empty _)
    (by simp [World.addRegistry]) hrefresh
  refine ⟨hchanges.store, hchanges.objects, ⟨hcurrent.consistent, ?_⟩, ?_, ?_,
    fun className id => (hcached className id).trans rfl⟩
  · rw [hsession, hchanges.store]
    exact hactive
  · rw [hchanges.store]
    exact hcurrent
  · rw [hchanges.store]
    exact hcomplete

/-- Opening a session with a new registry. -/
theorem openWith_run (hnew : options.registry = none) (hrun : openWith options v = (.ok session, w)) :
    Opened v w session := by
  have hloaded := loaded_of_openWith hrun
  rw [openWith_eq hloaded, hnew] at hrun
  refine opened_of_opening (fun place hplace => ?_) hrun
  cases hoption : options.active with
  | some name =>
    rw [hoption] at hplace
    cases hplace
    simpa using hloaded place hoption
  | none =>
    rw [hoption] at hplace
    exact List.mem_of_mem_head? hplace

/-- Opening a session where the only class has no superclasses. -/
theorem openWith_single {s : ClassSchema} (hclasses : v.store.classes = [s.name])
    (hs : ClassSchema.LoadedFrom v.store.hierarchy s.name s) (hbases : s.superclasses = []) :
    openWith {} v
      = (.ok {
          registry := ⟨v.registries.size⟩, active := v.store.loaded.head?
          cache := SessionCache.init {} s.name },
        v.addRegistry (.single ⟨v.registries.size⟩ s)
          (ClassSchema.load v.store.hierarchy s.name []).2) := by
  have hrefresh : refresh ⟨{ registry := ⟨v.registries.size⟩, active := v.store.loaded.head? },
      v.addRegistry {} []⟩ = (.ok [{ schema := s, bases := [], home := ⟨v.registries.size⟩ }],
        ⟨{
            registry := ⟨v.registries.size⟩, active := v.store.loaded.head?
            cache := SessionCache.init {} s.name },
          v.addRegistry (.single ⟨v.registries.size⟩ s)
            (ClassSchema.load v.store.hierarchy s.name []).2⟩) := by
    have hact := act_of_run (RegistryId.refresh_single hclasses hs hbases)
      (s := ⟨{ registry := ⟨v.registries.size⟩, active := v.store.loaded.head? },
        v.addRegistry {} []⟩)
    rw [refresh, bind_of_ok (get_apply _), bind_of_ok hact, bind_of_ok (modify_apply _ _),
      pure_apply, World.registry_addRegistry]
    rfl
  rw [openWith_eq (by simp)]
  exact opening_eq_ok.mpr ⟨_, hrefresh⟩

end Session

end RecordGraph
