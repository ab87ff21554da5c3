import RecordGraph.Proofs.Registry.Current
import RecordGraph.Registry.Refresh

/-!
Refreshing registries.  A refresh touches nothing but its registry and the reports; a current registry
stays current, and a refresh that succeeds leaves a schema and a type for every visible class.
-/

namespace RecordGraph

open RecordGraph.Computation

namespace World

/-- One world comes from another by changing one registry and reporting. -/
structure ChangesOnly (r : RegistryId) (v w : World) : Prop where
  store : w.store = v.store
  objects : w.objects = v.objects
  proxies : w.proxies = v.proxies
  size : w.registries.size = v.registries.size
  others : ∀ other, other ≠ r → w.registry other = v.registry other

variable {r : RegistryId} {u v w : World}

theorem ChangesOnly.refl (r : RegistryId) (w : World) : ChangesOnly r w w :=
  ⟨rfl, rfl, rfl, rfl, fun _ _ => rfl⟩

theorem ChangesOnly.trans (huv : ChangesOnly r u v) (hvw : ChangesOnly r v w) :
    ChangesOnly r u w where
  store := hvw.store.trans huv.store
  objects := hvw.objects.trans huv.objects
  proxies := hvw.proxies.trans huv.proxies
  size := hvw.size.trans huv.size
  others other hother := (hvw.others other hother).trans (huv.others other hother)

theorem changesOnly_warn (w : World) (ws : List Warning) : ChangesOnly r w (w.warn ws) :=
  ⟨rfl, rfl, rfl, rfl, fun _ _ => rfl⟩

theorem changesOnly_changeRegistry (w : World) (f : Registry → Registry) :
    ChangesOnly r w (w.changeRegistry r f) where
  store := rfl
  objects := rfl
  proxies := rfl
  size := by simp [changeRegistry]
  others other hother := by rw [registry_changeRegistry, if_neg fun h => hother h.1]

theorem registry_changeRegistry_self (f : Registry → Registry) (hr : r.index < w.registries.size) :
    (w.changeRegistry r f).registry r = f (w.registry r) := by
  rw [registry_changeRegistry, if_pos ⟨rfl, hr⟩]

/-- The world with one more registry, and more reports. -/
def addRegistry (w : World) (reg : Registry) (ws : List Warning) : World :=
  { w with registries := w.registries.push reg, warnings := w.warnings ++ ws }

variable {reg : Registry} {ws : List Warning}

theorem addRegistry_nil : { w with registries := w.registries.push reg } = w.addRegistry reg [] := by
  rw [addRegistry, List.append_nil]

theorem registry_addRegistry : (w.addRegistry reg ws).registry ⟨w.registries.size⟩ = reg :=
  (Arena.read_push ..).trans (if_pos rfl)

theorem changeRegistry_addRegistry (f : Registry → Registry) :
    (w.addRegistry reg ws).changeRegistry ⟨w.registries.size⟩ f = w.addRegistry (f reg) ws := by
  rw [changeRegistry, addRegistry, Arena.change_push]
  rfl

theorem warn_addRegistry (more : List Warning) :
    (w.addRegistry reg ws).warn more = w.addRegistry reg (ws ++ more) := by
  rw [warn, addRegistry, addRegistry, List.append_assoc]

end World

namespace Action

variable {α : Type} {w w' : World}

theorem logged_apply (m : Logged α) (w : World) :
    Action.logged m w = ((m []).1, w.warn (m []).2) := rfl

theorem newRegistry_apply (w : World) :
    Action.newRegistry w = (.ok ⟨w.registries.size⟩, w.addRegistry {} []) := by
  rw [Action.newRegistry, bind_of_ok (get_apply w), ← World.addRegistry_nil]
  rfl

theorem onRegistry_apply (r : RegistryId) (m : RegistryM α) (w : World) :
    Action.onRegistry r m w
      = ((m (w.registry r)).1, w.changeRegistry r fun _ => (m (w.registry r)).2) := rfl

end Action

namespace RegistryId

variable {r : RegistryId} {w w' : World} {c : String} {s : ClassSchema}

theorem loadSchema_of_loaded
    (hs : ClassSchema.LoadedFrom w.store.hierarchy c s) :
    r.loadSchema c w = (.ok (), (w.warn (ClassSchema.load w.store.hierarchy c []).2).changeRegistry r
      fun reg => { reg with schemas := reg.schemas.insert c s }) := by
  have hload : Action.logged (ClassSchema.load w.store.hierarchy c) w
      = (.ok s, w.warn (ClassSchema.load w.store.hierarchy c []).2) := by
    rw [Action.logged_apply, hs]
  rw [loadSchema, bind_of_ok (get_apply w), bind_of_ok hload]
  rfl

theorem loadSchema_run {u : Unit} (hrun : r.loadSchema c w = (.ok u, w'))
    (hr : r.index < w.registries.size) :
    w.ChangesOnly r w' ∧ ∃ s, ClassSchema.LoadedFrom w.store.hierarchy c s
      ∧ w'.registry r
        = { w.registry r with schemas := (w.registry r).schemas.insert c s } := by
  rw [loadSchema, bind_of_ok (get_apply w)] at hrun
  obtain ⟨s, w₁, hload, hrun⟩ := bind_eq_ok.mp hrun
  rw [Action.logged_apply] at hload
  obtain ⟨hloaded, rfl⟩ := Prod.mk.inj hload
  rw [modify_apply] at hrun
  obtain ⟨-, rfl⟩ := Prod.mk.inj hrun
  have hwarn := World.changesOnly_warn (r := r) w (ClassSchema.load w.store.hierarchy c []).2
  exact ⟨hwarn.trans (World.changesOnly_changeRegistry _ _), s, hloaded,
    World.registry_changeRegistry_self _ hr⟩

/-- Loading the schemas of classes forgets none. -/
theorem forM_loadSchema_contains {names : List String} {u : PUnit}
    (hr : r.index < w.registries.size) (hrun : names.forM r.loadSchema w = (.ok u, w')) :
    w.ChangesOnly r w'
      ∧ (∀ c, (w.registry r).schemas.contains c = true → (w'.registry r).schemas.contains c = true)
      ∧ ∀ c ∈ names, (w'.registry r).schemas.contains c = true := by
  refine forM_run (fun done w' => w.ChangesOnly r w'
    ∧ (∀ c, (w.registry r).schemas.contains c = true → (w'.registry r).schemas.contains c = true)
    ∧ ∀ c ∈ done, (w'.registry r).schemas.contains c = true) hrun ?_ ?_
  · exact ⟨.refl r w, fun _ hc => hc, by simp⟩
  · rintro done c w₁ w₂ - ⟨honly, hkept, hdone⟩ hstep
    obtain ⟨hnext, s, -, heq⟩ := loadSchema_run hstep (honly.size ▸ hr)
    have hinserted : ∀ c', (w₂.registry r).schemas.contains c'
        = (decide (c' = c) || (w₁.registry r).schemas.contains c') := by
      intro c'
      rw [heq, OrderedMap.contains_insert]
    refine ⟨honly.trans hnext, ?_, ?_⟩
    · intro c' hc'
      rw [hinserted, hkept c' hc', Bool.or_true]
    · intro c' hc'
      rw [hinserted]
      rcases List.mem_append.mp hc' with hc' | hc'
      · rw [hdone c' hc', Bool.or_true]
      · simp [List.mem_singleton.mp hc']

/-- Loading the schemas of classes keeps a registry current. -/
theorem forM_loadSchema_run {names : List String} {u : PUnit} {h : Hierarchy}
    (hh : w.store.hierarchy = h) (hcurrent : (w.registry r).Current h)
    (hr : r.index < w.registries.size) (hrun : names.forM r.loadSchema w = (.ok u, w')) :
    (w'.registry r).Current h ∧ (w'.registry r).updated = (w.registry r).updated := by
  have hrun := forM_run (fun _ w' => w.ChangesOnly r w' ∧ (w'.registry r).Current h
    ∧ (w'.registry r).updated = (w.registry r).updated) hrun ⟨.refl r w, hcurrent, rfl⟩ ?_
  · exact hrun.2
  · rintro done c w₁ w₂ - ⟨honly, hold, hupdated⟩ hstep
    obtain ⟨hnext, s, hloaded, heq⟩ := loadSchema_run hstep (honly.size ▸ hr)
    rw [honly.store, hh] at hloaded
    exact ⟨honly.trans hnext, heq ▸ hold.insertSchema hloaded, by rw [heq, ← hupdated]⟩

/-- A refresh leaves a current registry current, and knows all that is visible then. -/
theorem refresh_run {ts : List ClassType} (hcurrent : (w.registry r).Current w.store.hierarchy)
    (hr : r.index < w.registries.size) (hrun : r.refresh w = (.ok ts, w')) :
    w.ChangesOnly r w' ∧ (w'.registry r).Current w.store.hierarchy
      ∧ (w'.registry r).Complete w.store.hierarchy
      ∧ (w'.registry r).updated = (w.registry r).updated := by
  obtain ⟨_, w₁, hschemas, hderive⟩ := bind_eq_ok.mp hrun
  rw [refreshSchemas, bind_of_ok (get_apply w)] at hschemas
  obtain ⟨_, w₂, hloop, hpure⟩ := bind_eq_ok.mp hschemas
  obtain ⟨-, rfl⟩ := Prod.mk.inj hpure
  obtain ⟨hloads, hkept, hadded⟩ := forM_loadSchema_contains hr hloop
  obtain ⟨hloaded, hupdated⟩ := forM_loadSchema_run rfl hcurrent hr hloop
  rw [Action.onRegistry_apply] at hderive
  obtain ⟨hresult, rfl⟩ := Prod.mk.inj hderive
  cases hmissing : Registry.deriveMissing r (w₂.registry r) with
  | mk result reg =>
    rw [hmissing] at hresult
    obtain rfl : result = .ok ts := hresult
    obtain ⟨hderived, hsame, hupdated', htypes⟩ := Registry.deriveMissing_current hloaded hmissing
    rw [World.registry_changeRegistry_self _ (hloads.size ▸ hr)]
    refine ⟨hloads.trans (World.changesOnly_changeRegistry _ _), hderived, ?_,
      hupdated'.trans hupdated⟩
    intro c hc
    have hschema : (w₂.registry r).schemas.contains c = true := by
      by_cases hold : (w.registry r).schemas.contains c = true
      · exact hkept c hold
      · exact hadded c (List.mem_filter.mpr ⟨hc, by simp [hold]⟩)
    exact ⟨hsame ▸ hschema, htypes c hschema⟩

/-- Refreshing a new registry where the only class has no superclasses. -/
theorem refresh_single (hclasses : w.store.classes = [s.name])
    (hs : ClassSchema.LoadedFrom w.store.hierarchy s.name s) (hbases : s.superclasses = []) :
    (⟨w.registries.size⟩ : RegistryId).refresh (w.addRegistry {} [])
      = (.ok [{ schema := s, bases := [], home := ⟨w.registries.size⟩ }],
        w.addRegistry (.single ⟨w.registries.size⟩ s)
          (ClassSchema.load w.store.hierarchy s.name []).2) := by
  have hadded : (w.addRegistry {} []).store.classes.filter
      (fun name => !({} : Registry).schemas.contains name) = [s.name] := by
    rw [World.addRegistry, hclasses]
    rfl
  have hload : loadSchema ⟨w.registries.size⟩ s.name (w.addRegistry {} [])
      = (.ok (), w.addRegistry { schemas := .insert .empty s.name s }
        (ClassSchema.load w.store.hierarchy s.name []).2) := by
    rw [loadSchema_of_loaded (by exact hs), World.warn_addRegistry, World.changeRegistry_addRegistry]
    rfl
  have hloads : [s.name].forM (loadSchema ⟨w.registries.size⟩) (w.addRegistry {} [])
      = (.ok ⟨⟩, w.addRegistry { schemas := .insert .empty s.name s }
        (ClassSchema.load w.store.hierarchy s.name []).2) := (bind_of_ok hload).trans (pure_apply _ _)
  have hschemas : refreshSchemas ⟨w.registries.size⟩ (w.addRegistry {} [])
      = (.ok [s.name], w.addRegistry { schemas := .insert .empty s.name s }
        (ClassSchema.load w.store.hierarchy s.name []).2) := by
    rw [refreshSchemas, bind_of_ok (get_apply _), World.registry_addRegistry, hadded,
      bind_of_ok hloads, pure_apply]
  rw [refresh, bind_of_ok hschemas, Action.onRegistry_apply, World.registry_addRegistry,
    Registry.deriveMissing_single _ hbases, World.changeRegistry_addRegistry]

end RegistryId

end RecordGraph
