import RecordGraph.Proofs.Computation
import RecordGraph.Proofs.Store.Visibility
import RecordGraph.Proxy.Operations

/-!
What relations resolve to.  A store and the classes that a registry has schemas for decide which
records a relation leads to, or that it cannot be fetched.  Reading through proxies only makes further
proxies; a world is truthful about proxies when each knows the schema of its record and holds, for
every relation it keeps, what the store resolves it to.
-/

namespace RecordGraph

/-- The record that a value points to, if its class is known. -/
def Value.reference? (known : String → Bool) : Value → Option RecordRef
  | .record r => if known r.className then some r else none
  | _ => none

/-- The records that a relation of a record leads to; none if it cannot be fetched. -/
def Store.resolve (s : Store) (known : String → Bool) (owner : RecordRef) (r : Relation) :
    Option (List RecordRef) :=
  match s.read owner r.name r.accessor, r.multivalue with
  | .ok .null, _ => some []
  | .ok (.list items), true => items.mapM (Value.reference? known)
  | .ok (.record t), false => (Value.reference? known (.record t)).map fun t => [t]
  | _, _ => none

namespace Value

variable {known : String → Bool} {v : Value} {t : RecordRef}

theorem reference?_eq_some :
    v.reference? known = some t ↔ v = .record t ∧ known t.className = true := by
  cases v with
  | record r =>
    simp only [reference?]
    split
    · rename_i hknown
      constructor
      · intro h
        cases h
        exact ⟨rfl, hknown⟩
      · rintro ⟨h, -⟩
        cases h
        rfl
    · rename_i hunknown
      constructor
      · simp
      · rintro ⟨h, hknown⟩
        cases h
        exact absurd hknown hunknown
  | _ => simp [reference?]

theorem mem_targets_go {items : List Value} (h : .record t ∈ items) : t ∈ targets.go items := by
  induction items with
  | nil => simp at h
  | cons v vs ih =>
    rw [targets.go]
    rcases List.mem_cons.mp h with rfl | h
    · exact List.mem_append_left _ (by simp [targets])
    · exact List.mem_append_right _ (ih h)

theorem mem_of_mapM_reference? {items : List Value} {ts : List RecordRef}
    (h : items.mapM (reference? known) = some ts) (ht : t ∈ ts) :
    .record t ∈ items ∧ known t.className = true := by
  induction items generalizing ts with
  | nil =>
    cases h
    simp at ht
  | cons v vs ih =>
    rw [List.mapM_cons] at h
    cases hv : v.reference? known with
    | none => simp [hv] at h
    | some first =>
      cases hrest : vs.mapM (reference? known) with
      | none => simp [hv, hrest] at h
      | some rest =>
        simp only [hv, hrest, Option.pure_def, Option.bind_eq_bind, Option.bind_some,
          Option.some.injEq] at h
        subst h
        rcases List.mem_cons.mp ht with rfl | ht
        · obtain ⟨rfl, hknown⟩ := reference?_eq_some.mp hv
          exact ⟨List.mem_cons_self, hknown⟩
        · obtain ⟨hmem, hknown⟩ := ih hrest ht
          exact ⟨List.mem_cons_of_mem v hmem, hknown⟩

end Value

namespace Store

variable {s : Store} {known : String → Bool} {owner t : RecordRef} {r : Relation}
  {ts : List RecordRef}

/-- A relation resolves to visible records of known classes. -/
theorem visible_of_mem_resolve (h : s.resolve known owner r = some ts) (ht : t ∈ ts) :
    s.Visible t ∧ known t.className = true := by
  have hobject : r.accessor.isObject = true := by
    simp [Relation.accessor, Accessor.object, Accessor.isObject]
  unfold resolve at h
  split at h
  · cases h
    simp at ht
  · rename_i items hread _
    obtain ⟨hmem, hknown⟩ := Value.mem_of_mapM_reference? h ht
    obtain ⟨_, _, _, _, hvisible⟩ := read_eq_ok hread
    exact ⟨hvisible hobject t (Value.mem_targets_go hmem), hknown⟩
  · rename_i target hread _
    obtain ⟨u, hu, rfl⟩ := Option.map_eq_some_iff.mp h
    obtain ⟨heq, hknown⟩ := Value.reference?_eq_some.mp hu
    cases heq
    obtain rfl := List.mem_singleton.mp ht
    obtain ⟨_, _, _, _, hvisible⟩ := read_eq_ok hread
    exact ⟨hvisible hobject t (by simp [Value.targets]), hknown⟩
  · simp at h

end Store

namespace World

/-- Whether a registry has a schema for a class. -/
def hasSchema (w : World) (reg : RegistryId) (className : String) : Bool :=
  (w.registry reg).schemas.contains className

/-- One world comes from another by making proxies and reading through them. -/
structure Extends (v w : World) : Prop where
  store : w.store = v.store
  registries : w.registries = v.registries
  objects : w.objects = v.objects
  size_le : v.proxies.size ≤ w.proxies.size
  record : ∀ q : ProxyId, q.index < v.proxies.size → w.recordOf q = v.recordOf q
  schema : ∀ q : ProxyId, q.index < v.proxies.size → (w.proxy q).schema = (v.proxy q).schema
  registry : ∀ q : ProxyId, q.index < v.proxies.size → (w.proxy q).registry = (v.proxy q).registry

theorem Extends.refl (w : World) : w.Extends w :=
  ⟨rfl, rfl, rfl, Nat.le_refl _, fun _ _ => rfl, fun _ _ => rfl, fun _ _ => rfl⟩

theorem Extends.trans {u v w : World} (huv : u.Extends v) (hvw : v.Extends w) : u.Extends w where
  store := hvw.store.trans huv.store
  registries := hvw.registries.trans huv.registries
  objects := hvw.objects.trans huv.objects
  size_le := Nat.le_trans huv.size_le hvw.size_le
  record q hq := (hvw.record q (Nat.lt_of_lt_of_le hq huv.size_le)).trans (huv.record q hq)
  schema q hq := (hvw.schema q (Nat.lt_of_lt_of_le hq huv.size_le)).trans (huv.schema q hq)
  registry q hq := (hvw.registry q (Nat.lt_of_lt_of_le hq huv.size_le)).trans (huv.registry q hq)

theorem Extends.registry_eq {v w : World} (h : v.Extends w) (reg : RegistryId) :
    World.registry w reg = World.registry v reg := by
  unfold World.registry
  rw [h.registries]

theorem Extends.hasSchema_eq {v w : World} (h : v.Extends w) (reg : RegistryId) :
    w.hasSchema reg = v.hasSchema reg := by
  funext c
  rw [hasSchema, hasSchema, h.registry_eq]

/-- What a relation of a proxy leads to is what the store resolves it to, through proxies that are
looked at. -/
structure Resolves (w : World) (reg : RegistryId) (views : ProxyId → Prop) (q : ProxyId)
    (r : Relation) (related : Related) : Prop where
  isMany : related.isMany = r.multivalue
  records : related.targets.map w.recordOf
    = (w.store.resolve (w.hasSchema reg) (w.recordOf q) r).getD []
  viewed : ∀ p ∈ related.targets, views p ∧ p.index < w.proxies.size

/-- Every proxy that is looked at knows the schema of its record, and tells of relations what the
store does. -/
structure Truthful (w : World) (reg : RegistryId) (views : ProxyId → Prop) : Prop where
  registry : ∀ q, views q → q.index < w.proxies.size → (w.proxy q).registry = reg
  schema : ∀ q, views q → q.index < w.proxies.size →
    (w.registry reg).schema (w.recordOf q).className = .ok (w.proxy q).schema
  kept : ∀ q, views q → q.index < w.proxies.size → ∀ name r related,
    (w.proxy q).schema.relation? name = some r → (w.proxy q).relations.get? name = some related →
      w.Resolves reg views q r related

theorem Resolves.extends {v w : World} {reg : RegistryId} {views : ProxyId → Prop} {q : ProxyId}
    {r : Relation} {related : Related} (h : v.Resolves reg views q r related) (hvw : v.Extends w)
    (hq : q.index < v.proxies.size) : w.Resolves reg views q r related where
  isMany := h.isMany
  records := by
    rw [hvw.store, hvw.hasSchema_eq, hvw.record q hq, ← h.records]
    exact List.map_congr_left fun p hp => hvw.record p (h.viewed p hp).2
  viewed p hp := ⟨(h.viewed p hp).1, Nat.lt_of_lt_of_le (h.viewed p hp).2 hvw.size_le⟩

/-- Whether proxies tell the truth is between them, the store and the registries. -/
theorem Truthful.of_eq {v w : World} {reg : RegistryId} {views : ProxyId → Prop}
    (h : v.Truthful reg views) (hproxies : w.proxies = v.proxies) (hstore : w.store = v.store)
    (hregistries : w.registries = v.registries) : w.Truthful reg views := by
  have hproxy : w.proxy = v.proxy := by
    unfold proxy
    rw [hproxies]
  have hrecord : w.recordOf = v.recordOf := by
    unfold recordOf
    rw [hproxy]
  have hregistry : w.registry = v.registry := by
    unfold World.registry
    rw [hregistries]
  have hknown : w.hasSchema reg = v.hasSchema reg := by
    funext c
    unfold hasSchema
    rw [hregistry]
  constructor
  · intro q hq hlt
    rw [hproxy]
    exact h.registry q hq (hproxies ▸ hlt)
  · intro q hq hlt
    rw [hregistry, hrecord, hproxy]
    exact h.schema q hq (hproxies ▸ hlt)
  · intro q hq hlt name r related hname hrelated
    rw [hproxy] at hname hrelated
    have hresolves := h.kept q hq (hproxies ▸ hlt) name r related hname hrelated
    refine ⟨hresolves.isMany, ?_, fun p hp => ?_⟩
    · rw [hrecord, hstore, hknown]
      exact hresolves.records
    · rw [hproxies]
      exact hresolves.viewed p hp

end World

end RecordGraph
