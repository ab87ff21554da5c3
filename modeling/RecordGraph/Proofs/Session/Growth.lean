import RecordGraph.Proofs.Object.Shown
import RecordGraph.Proofs.Proxy.Reading
import RecordGraph.Proofs.Registry.Current
import RecordGraph.Session.Hydrate

/-!
How a workspace grows while objects are made for records.  Store, registries and what is cached for a
record stay; there come to be more objects and proxies, and objects come to hold more in their fields.
An object that stands for its record goes on standing for it.
-/

namespace RecordGraph

open RecordGraph.Computation

namespace Session

variable {α : Type} {s t : Workspace}

theorem act_apply (a : Action α) (s : Workspace) :
    act a s = ((a s.world).1, { s with world := (a s.world).2 }) := rfl

theorem act_of_run {a : Action α} {x : Except Error α} {w : World} (h : a s.world = (x, w)) :
    act a s = (x, { s with world := w }) := by
  rw [act_apply, h]

theorem act_eq_ok {a : Action α} {x : α} (h : act a s = (.ok x, t)) :
    a s.world = (.ok x, t.world) ∧ t = { s with world := t.world } := by
  rw [act_apply] at h
  obtain ⟨hresult, rfl⟩ := Prod.mk.inj h
  exact ⟨Prod.ext hresult rfl, rfl⟩

theorem ask_apply (f : Workspace → Except Error α) (s : Workspace) : ask f s = (f s, s) := by
  rw [ask, bind_of_ok (get_apply s), ofExcept_apply]

theorem askStore_apply (f : Store → Except Error α) (s : Workspace) :
    askStore f s = (f s.world.store, s) := ask_apply _ s

theorem askStore_run {f : Store → Except Error α} {x : Except Error α}
    (hrun : askStore f s = (x, t)) : f s.world.store = x ∧ s = t :=
  Prod.mk.inj ((askStore_apply f s).symm.trans hrun)

end Session

namespace Workspace

variable {s t u : Workspace} {o : ObjectId}

/-- The registry of the session. -/
def registry (s : Workspace) : Registry := s.world.registry s.session.registry

/-- The records that a relation of a record leads to as far as the session can tell. -/
def resolve (s : Workspace) (r : RecordRef) (relation : Relation) : List RecordRef :=
  (s.world.store.resolve (s.world.hasSchema s.session.registry) r relation).getD []

/-- An object stands for its record: it is the cached one, its type is the registered one, and nobody
wrote to it or renamed it. -/
structure Stands (s : Workspace) (o : ObjectId) : Prop where
  bound : o.index < s.world.objects.size
  cached : s.cached? (s.world.object o).className (s.world.object o).id = some o
  type : s.registry.types.get? (s.world.object o).className = some (s.world.object o).type
  touched : (s.world.object o).touched = []
  oldId : (s.world.object o).oldId = none

/-- One workspace comes from another by making objects and proxies and loading fields. -/
structure Grows (s t : Workspace) : Prop where
  store : t.world.store = s.world.store
  registries : t.world.registries = s.world.registries
  session : t.session = { s.session with cache := t.session.cache }
  objects : s.world.objects.size ≤ t.world.objects.size
  proxies : s.world.proxies.size ≤ t.world.proxies.size
  record : ∀ q : ProxyId, q.index < s.world.proxies.size → t.world.recordOf q = s.world.recordOf q
  schema : ∀ q : ProxyId, q.index < s.world.proxies.size →
    (t.world.proxy q).schema = (s.world.proxy q).schema
  header : ∀ o : ObjectId, o.index < s.world.objects.size →
    ∃ fields, t.world.object o = { s.world.object o with fields }
  cached : ∀ o, s.Stands o →
    t.cached? (s.world.object o).className (s.world.object o).id = some o

namespace Grows

theorem refl (s : Workspace) : s.Grows s :=
  ⟨rfl, rfl, rfl, Nat.le_refl _, Nat.le_refl _, fun _ _ => rfl, fun _ _ => rfl,
    fun o _ => ⟨(s.world.object o).fields, rfl⟩, fun _ ho => ho.cached⟩

section

variable (h : s.Grows t)

include h

theorem registryId : t.session.registry = s.session.registry := by rw [h.session]

theorem registry : t.registry = s.registry := by
  unfold Workspace.registry World.registry
  rw [h.registries, h.registryId]

theorem hasSchema :
    t.world.hasSchema t.session.registry = s.world.hasSchema s.session.registry := by
  funext c
  unfold World.hasSchema World.registry
  rw [h.registries, h.registryId]

theorem resolve : t.resolve = s.resolve := by
  funext r relation
  unfold Workspace.resolve
  rw [h.store, h.hasSchema]

theorem type (ho : o.index < s.world.objects.size) :
    (t.world.object o).type = (s.world.object o).type := by
  obtain ⟨fields, heq⟩ := h.header o ho
  rw [heq]

theorem recordOf (ho : o.index < s.world.objects.size) :
    (t.world.object o).record = (s.world.object o).record := by
  obtain ⟨fields, heq⟩ := h.header o ho
  rw [heq]
  rfl

theorem stands (ho : s.Stands o) : t.Stands o := by
  obtain ⟨fields, heq⟩ := h.header o ho.bound
  refine ⟨Nat.lt_of_lt_of_le ho.bound h.objects, ?_, ?_, ?_, ?_⟩
  · rw [heq]
    exact h.cached o ho
  · rw [heq, h.registry]
    exact ho.type
  · rw [heq]
    exact ho.touched
  · rw [heq]
    exact ho.oldId

end

theorem trans (hst : s.Grows t) (htu : t.Grows u) : s.Grows u where
  store := htu.store.trans hst.store
  registries := htu.registries.trans hst.registries
  session := by rw [htu.session, hst.session]
  objects := Nat.le_trans hst.objects htu.objects
  proxies := Nat.le_trans hst.proxies htu.proxies
  record q hq := (htu.record q (Nat.lt_of_lt_of_le hq hst.proxies)).trans (hst.record q hq)
  schema q hq := (htu.schema q (Nat.lt_of_lt_of_le hq hst.proxies)).trans (hst.schema q hq)
  header o ho := by
    obtain ⟨fields, heq⟩ := hst.header o ho
    obtain ⟨fields', heq'⟩ := htu.header o (Nat.lt_of_lt_of_le ho hst.objects)
    exact ⟨fields', by rw [heq', heq]⟩
  cached o ho := by
    obtain ⟨fields, heq⟩ := hst.header o ho.bound
    have hcached := htu.cached o (hst.stands ho)
    rwa [heq] at hcached

end Grows

/-! ### Single steps -/

/-- Reading through proxies. -/
theorem grows_of_extends {w : World} (h : s.world.Extends w) : s.Grows { s with world := w } where
  store := h.store
  registries := h.registries
  session := rfl
  objects := Nat.le_of_eq (congrArg Arena.size h.objects.symm)
  proxies := h.size_le
  record := h.record
  schema := h.schema
  header o _ := ⟨(s.world.object o).fields, by
    unfold World.object
    rw [h.objects]⟩
  cached _ ho := ho.cached

/-- The workspace in which a field of an object was loaded. -/
def load (s : Workspace) (o : ObjectId) (name : String) (f : Field) : Workspace :=
  { s with world := s.world.changeObject o fun object => object.load name f }

theorem object_load (name : String) (f : Field) (p : ObjectId) :
    (s.load o name f).world.object p
      = if p = o ∧ o.index < s.world.objects.size then (s.world.object o).load name f
        else s.world.object p :=
  World.object_changeObject s.world o p _

theorem grows_load (s : Workspace) (o : ObjectId) (name : String) (f : Field) :
    s.Grows (s.load o name f) where
  store := rfl
  registries := rfl
  session := rfl
  objects := by simp [load, World.changeObject]
  proxies := Nat.le_refl _
  record _ _ := rfl
  schema _ _ := rfl
  header p _ := by
    rw [object_load]
    split
    · rename_i h
      exact ⟨_, by rw [h.1]; rfl⟩
    · exact ⟨_, rfl⟩
  cached _ hp := hp.cached

/-- The workspace with a new object of a type, cached under an id. -/
def make (s : Workspace) (type : ClassType) (id : String) : Workspace :=
  { session := { s.session with
      cache := s.session.cache.insert type.names id ⟨s.world.objects.size⟩ }
    world := { s.world with
      objects := s.world.objects.push { type, id } } }

variable {type : ClassType} {id : String}

theorem object_make (p : ObjectId) :
    (s.make type id).world.object p
      = if p.index = s.world.objects.size then { type, id } else s.world.object p :=
  Arena.read_push ..

theorem object_make_of_lt {p : ObjectId} (hp : p.index < s.world.objects.size) :
    (s.make type id).world.object p = s.world.object p := by
  rw [object_make, if_neg (Nat.ne_of_lt hp)]

theorem object_make_new :
    (s.make type id).world.object ⟨s.world.objects.size⟩ = { type, id } := by
  rw [object_make, if_pos rfl]

theorem cached?_make (className other : String) :
    (s.make type id).cached? className other
      = if className ∈ type.names ∧ other = id then some ⟨s.world.objects.size⟩
        else s.cached? className other :=
  SessionCache.get?_insert ..

theorem cached?_make_eq_some {className other : String} {o : ObjectId}
    (h : (s.make type id).cached? className other = some o) :
    (o = ⟨s.world.objects.size⟩ ∧ className ∈ type.names ∧ other = id)
      ∨ s.cached? className other = some o := by
  rw [cached?_make] at h
  split at h
  · rename_i hnew
    exact Or.inl ⟨(Option.some.inj h).symm, hnew⟩
  · exact Or.inr h

theorem cached?_cache (s : Workspace) (o : ObjectId) (className id : String) :
    (s.cache o).cached? className id
      = if className ∈ s.classesOf o ∧ id = (s.world.object o).id then some o
        else s.cached? className id :=
  SessionCache.get?_insert ..

theorem cached?_cache_eq_some {className id : String} {o x : ObjectId}
    (h : (s.cache o).cached? className id = some x) :
    (x = o ∧ className ∈ s.classesOf o ∧ id = (s.world.object o).id)
      ∨ s.cached? className id = some x := by
  rw [cached?_cache] at h
  split at h
  · rename_i hnew
    exact Or.inl ⟨(Option.some.inj h).symm, hnew⟩
  · exact Or.inr h

theorem size_make : (s.make type id).world.objects.size = s.world.objects.size + 1 := by
  simp [make]

/-- Making an object that takes the place of no other. -/
theorem grows_make (hfree : ∀ o, s.Stands o → (s.world.object o).id = id →
    (s.world.object o).className ∉ type.names) : s.Grows (s.make type id) where
  store := rfl
  registries := rfl
  session := rfl
  objects := by rw [size_make]; exact Nat.le_succ _
  proxies := Nat.le_refl _
  record _ _ := rfl
  schema _ _ := rfl
  header p hp := ⟨_, by rw [object_make_of_lt hp]⟩
  cached o ho := by
    rw [cached?_make, if_neg fun h => hfree o ho h.2 h.1]
    exact ho.cached

/-- A new object of a registered type stands for its record. -/
theorem stands_make (htype : s.registry.types.get? type.name = some type) :
    (s.make type id).Stands ⟨s.world.objects.size⟩ := by
  refine ⟨?_, ?_, ?_, ?_, ?_⟩
  · simp [size_make]
  · rw [object_make_new, cached?_make]
    exact if_pos ⟨ClassType.name_mem_names type, rfl⟩
  · rw [object_make_new]
    exact htype
  · rw [object_make_new]
  · rw [object_make_new]

end Workspace

namespace Session

variable {s t : Workspace} {p : ProxyId} {o : ObjectId}

/-- Making a proxy for a record. -/
theorem proxyFor_of_ok {r : RecordRef} {schema : ClassSchema}
    (hschema : s.registry.schema r.className = .ok schema) :
    proxyFor r s = (.ok ⟨s.world.proxies.size⟩, { s with
      world := s.world.pushProxy { record := r, schema, registry := s.session.registry } }) := by
  rw [proxyFor, bind_of_ok (get_apply s)]
  exact act_of_run (Action.newProxy_of_ok hschema)

theorem proxyFor_eq_ok {r : RecordRef} (hrun : proxyFor r s = (.ok p, t)) :
    ∃ schema, s.registry.schema r.className = .ok schema ∧ p = ⟨s.world.proxies.size⟩
      ∧ t = { s with
        world := s.world.pushProxy { record := r, schema, registry := s.session.registry } } := by
  cases hschema : s.registry.schema r.className with
  | error e =>
    rw [proxyFor, bind_of_ok (get_apply s), act_of_run (Action.newProxy_of_error hschema)] at hrun
    simp at hrun
  | ok schema =>
    rw [proxyFor_of_ok hschema] at hrun
    obtain ⟨hp, ht⟩ := Prod.mk.inj hrun
    exact ⟨schema, rfl, (Except.ok.inj hp).symm, ht.symm⟩

/-- Making and caching the object of a record. -/
theorem instantiate_of_type {type : ClassType}
    (htype : s.registry.types.get? (s.world.recordOf p).className = some type) :
    instantiate p s = (.ok ⟨s.world.objects.size⟩, s.make type (s.world.recordOf p).id) := by
  have hfound := Registry.type_eq_ok.mpr htype
  have hread : (s.world.objects.push { type, id := (s.world.recordOf p).id }).read
      s.world.objects.size = { type, id := (s.world.recordOf p).id } :=
    (Arena.read_push ..).trans (if_pos rfl)
  rw [instantiate, bind_of_ok (get_apply s), bind_of_ok (a := type) (t := s)
    (by rw [ofExcept_apply]; exact congrArg (·, s) hfound)]
  apply congrArg (Except.ok _, ·)
  simp only [Workspace.cache, Workspace.classesOf, Workspace.make, World.object, hread]

theorem instantiate_run (hrun : instantiate p s = (.ok o, t)) :
    ∃ type, s.registry.types.get? (s.world.recordOf p).className = some type
      ∧ o = ⟨s.world.objects.size⟩ ∧ t = s.make type (s.world.recordOf p).id := by
  cases htype : s.registry.types.get? (s.world.recordOf p).className with
  | some type =>
    rw [instantiate_of_type htype] at hrun
    obtain ⟨ho, ht⟩ := Prod.mk.inj hrun
    exact ⟨type, rfl, (Except.ok.inj ho).symm, ht.symm⟩
  | none =>
    rw [instantiate, bind_of_ok (get_apply s)] at hrun
    obtain ⟨type, s₁, hfound, -⟩ := bind_eq_ok.mp hrun
    rw [ofExcept_apply] at hfound
    obtain ⟨hfound, -⟩ := Prod.mk.inj hfound
    cases htype.symm.trans (Registry.type_eq_ok.mp hfound)

end Session

end RecordGraph
