import RecordGraph.Proofs.Session.Hydration
import RecordGraph.Proofs.Store.Writing

/-!
Hydration that cannot fail.  Where every record of the domain is visible and the session has a type for
its class, every object is made, every attribute reads, and a relation that cannot be fetched degrades:
getting an object by its class and id succeeds.
-/

namespace RecordGraph

open RecordGraph.Computation Workspace

namespace Workspace

/-- Records for which a session can make objects, all of them visible and of classes with a type. -/
structure Loadable (base : Workspace) (D : RecordRef → Prop) : Prop extends Hydratable base D where
  visible : ∀ r, D r → base.world.store.Visible r
  known : ∀ r, D r → base.registry.types.contains r.className = true

variable {base : Workspace} {D : RecordRef → Prop}

theorem Loadable.type (hl : Loadable base D) {r : RecordRef} (hr : D r) :
    ∃ type, base.registry.types.get? r.className = some type :=
  Option.isSome_iff_exists.mp ((OrderedMap.get?_isSome _ _).trans (hl.known r hr))

end Workspace

namespace Session

variable {base s : Workspace} {D : RecordRef → Prop} {pending : List Pending} {next : Pending}

theorem objectOf_ok {p : ProxyId} (hs : Hydrating base D pending s) (hl : Loadable base D)
    (hD : D (s.world.recordOf p)) : ∃ found t, objectOf p s = (.ok found, t) := by
  rw [objectOf, bind_of_ok (get_apply s)]
  cases hcached : s.cached? (s.world.recordOf p).className (s.world.recordOf p).id with
  | some o => exact ⟨(o, false), s, rfl⟩
  | none =>
    obtain ⟨type, htype⟩ := hl.type hD
    rw [← hs.grown.registry] at htype
    exact ⟨_, _, bind_of_ok (instantiate_of_type htype)⟩

/-- The attributes of a waiting object read. -/
theorem loadAttribute_ok {name : String} {a : Attribute} (hs : Hydrating base D (next :: pending) s)
    (hl : Loadable base D)
    (hname : (s.world.object next.object).schema.attribute? name = some a) :
    ∃ t, loadAttribute next name s = (.ok (), t) := by
  obtain ⟨hstands, -, -, hrecord⟩ := hs.waiting next List.mem_cons_self
  obtain ⟨-, hD⟩ := hs.domain hstands
  have htype := hstands.type
  rw [hs.grown.registry] at htype
  obtain ⟨-, hschema, -⟩ := hl.current.types _ _ htype
  obtain ⟨place, hplace⟩ := Option.isSome_iff_exists.mp (hl.visible _ hD)
  have hfield : base.world.store.checkField (s.world.object next.object).record name = .ok () :=
    Store.checkField_of_hasField
      ((hl.current.schemas _ _ hschema).hasField (Or.inl (Option.isSome_iff_exists.mpr ⟨a, hname⟩)))
  have hread : s.world.store.read (s.world.recordOf next.proxy) name a.getter
      = .ok (base.world.store.stored place (s.world.object next.object).record name
        a.getter.multi) := by
    rw [hs.grown.store, hrecord, Store.read_of_location hplace
      (by simp [Attribute.getter, Accessor.getter, Accessor.isObject]), hfield]
    rfl
  have hget := ProxyId.getAttribute_apply ((schema_of_waiting hs hl.toHydratable).symm ▸ hname)
  rw [hread] at hget
  exact ⟨_, bind_of_ok (act_of_run hget)⟩

theorem mapM_objectOf_ok {ps : List ProxyId} (hs : Hydrating base D pending s) (hl : Loadable base D)
    (hps : ∀ p ∈ ps, base.world.proxies.size ≤ p.index ∧ p.index < s.world.proxies.size
      ∧ D (s.world.recordOf p)) :
    ∃ found t, (ps.mapM fun p => do pure (p, ← objectOf p) :
      SessionM (List (ProxyId × ObjectId × Bool))) s = (.ok found, t) := by
  suffices h : ∃ found t, (ps.mapM fun p => do pure (p, ← objectOf p) :
      SessionM (List (ProxyId × ObjectId × Bool))) s = (.ok found, t)
      ∧ ∃ found, Finds base D pending s found t by
    obtain ⟨found, t, hrun, -⟩ := h
    exact ⟨found, t, hrun⟩
  refine mapM_ok (fun t => ∃ found, Finds base D pending s found t) ⟨[], .nil hs⟩ ?_
  rintro p a hp ⟨found, hfinds⟩
  obtain ⟨hviewed, hlt, hD⟩ := hps p hp
  have hrecord : a.world.recordOf p = s.world.recordOf p := hfinds.grows.record p hlt
  rw [← hrecord] at hD
  obtain ⟨⟨o, new⟩, b, hobject⟩ := objectOf_ok hfinds.hydrating hl hD
  have hlast := objectOf_run hfinds.hydrating hl.toHydratable hviewed (hfinds.proxies ▸ hlt) hD
    hobject
  exact ⟨(p, o, new), b, bind_of_ok hobject, _, hfinds.append hlast⟩

/-- A relation of a waiting object is fetched or degrades. -/
theorem loadRelation_ok {r : Relation} (hs : Hydrating base D (next :: pending) s)
    (hl : Loadable base D) (hr : r ∈ (s.world.object next.object).schema.relations.values) :
    ∃ found t, loadRelation next r s = (.ok found, t) := by
  obtain ⟨related, w, hget, -, hread, -, htargets⟩ := getRelation_waiting hs hl.toHydratable hr
  obtain ⟨found, t, hmapM⟩ := mapM_objectOf_ok hread hl htargets
  rw [loadRelation, bind_of_ok (act_of_run hget), bind_of_ok hmapM]
  exact ⟨_, _, rfl⟩

theorem loadFields_ok (hs : Hydrating base D (next :: pending) s) (hl : Loadable base D) :
    ∃ found t, loadFields next s = (.ok found, t) := by
  have hd := hl.toHydratable
  rw [loadFields, bind_of_ok (get_apply s), schema_of_waiting hs hd]
  obtain ⟨t, hattributes, hfirst⟩ : ∃ t,
      (s.world.object next.object).schema.attributes.keys.forM (loadAttribute next) s = (.ok ⟨⟩, t)
        ∧ Loads base D next pending s [] t := by
    refine forM_ok (fun t => Loads base D next pending s [] t) (.refl hs) ?_
    intro name b hname hloads
    obtain ⟨a, ha⟩ := ClassSchema.exists_attribute?_of_mem hname
    rw [← hloads.schema_eq hs] at ha
    obtain ⟨c, hstep⟩ := loadAttribute_ok hloads.hydrating hl ha
    exact ⟨c, hstep, hloads.trans (loadAttribute_run hloads.hydrating hd ha hstep).1⟩
  obtain ⟨lists, u, hrelations, -⟩ : ∃ lists u,
      (s.world.object next.object).schema.relations.values.mapM (loadRelation next) t = (.ok lists, u)
        ∧ ∃ found, Loads base D next pending t found u := by
    refine mapM_ok (fun u => ∃ found, Loads base D next pending t found u)
      ⟨[], .refl hfirst.hydrating⟩ ?_
    rintro r b hr ⟨found, hloads⟩
    rw [← hfirst.schema_eq hs, ← hloads.schema_eq hfirst.hydrating] at hr
    obtain ⟨more, c, hstep⟩ := loadRelation_ok hloads.hydrating hl hr
    exact ⟨more, c, hstep, _, hloads.trans (loadRelation_run hloads.hydrating hd hr hstep).1⟩
  rw [bind_of_ok hattributes, bind_of_ok hrelations]
  exact ⟨_, _, rfl⟩

theorem loadPending_ok (hl : Loadable base D) (steps : Nat) (hs : Hydrating base D pending s) :
    ∃ t, loadPending steps pending s = (.ok (), t) := by
  induction steps generalizing s pending with
  | zero => exact ⟨s, rfl⟩
  | succ steps ih =>
    cases pending with
    | nil => exact ⟨s, rfl⟩
    | cons next pending =>
      obtain ⟨found, t, hload⟩ := loadFields_ok hs hl
      obtain ⟨hnext, -, -⟩ := loadFields_run hs hl.toHydratable hload
      have hwaits : Hydrating base D (found.reverse ++ pending) t :=
        hnext.of_mem_iff fun other => by simp
      obtain ⟨u, hrest⟩ := ih hwaits
      exact ⟨u, (bind_of_ok hload).trans hrest⟩

theorem hydrate_ok {p : ProxyId} (hs : Hydrating base D [] s) (hl : Loadable base D)
    (hviewed : base.world.proxies.size ≤ p.index) (hlt : p.index < s.world.proxies.size)
    (hD : D (s.world.recordOf p)) : ∃ o t, hydrate p s = (.ok o, t) := by
  obtain ⟨⟨o, new⟩, t, hfind⟩ := objectOf_ok hs hl hD
  have hfinds := objectOf_run hs hl.toHydratable hviewed hlt hD hfind
  rw [hydrate, bind_of_ok hfind]
  cases new with
  | false => exact ⟨o, t, rfl⟩
  | true =>
    have hwaits : Hydrating base D [⟨p, o⟩] t := hfinds.hydrating
    obtain ⟨u, hload⟩ := loadPending_ok hl (t.world.store.recordCount + 1) hwaits
    simp only [if_true]
    rw [bind_of_ok (get_apply t), bind_of_ok hload]
    exact ⟨o, u, rfl⟩

/-- Where nothing is cached yet, getting an object of the domain succeeds, and gives the object that
stands for the record. -/
theorem getObject_ok {className id : String} {r : RecordRef} (hs : Hydrating base D [] s)
    (hl : Loadable base D) (hcached : s.cached? className id = none)
    (hfind : base.world.store.find className id = some r) (hD : D r) :
    ∃ o t, getObject className id s = (.ok o, t) ∧ Hydrating base D [] t ∧ t.Stands o
      ∧ (t.world.object o).record = r := by
  obtain ⟨type, htype⟩ := hl.type hD
  obtain ⟨-, hschema, -⟩ := hl.current.types _ _ htype
  have hknown : s.registry.schema r.className = .ok type.schema := by
    rw [hs.grown.registry]
    exact Registry.schema_eq_ok.mpr hschema
  have hget : askStore (fun store => store.getRecord className id) s = (.ok r, s) := by
    rw [askStore_apply, hs.grown.store, Store.getRecord_eq_ok.mpr hfind]
  obtain ⟨p, t, hrecord⟩ : ∃ p t, record className id s = (.ok p, t) := by
    rw [record, bind_of_ok hget, proxyFor_of_ok hknown]
    exact ⟨_, _, rfl⟩
  obtain ⟨hnext, -, hviewed, hlt, hfound⟩ := record_run hs hrecord
  rw [hfind] at hfound
  have hr : r = t.world.recordOf p := Option.some.inj hfound
  obtain ⟨o, u, hhydrate⟩ := hydrate_ok hnext hl hviewed hlt (hr ▸ hD)
  obtain ⟨-, hdone⟩ := hydrate_run hl.toHydratable hnext hviewed hlt (hr ▸ hD)
  obtain ⟨hend, -, hstands, hof⟩ := hdone o u hhydrate
  refine ⟨o, u, ?_, hend, hstands, hof.trans hr.symm⟩
  rw [getObject, bind_of_ok (get_apply s)]
  simp only [hcached]
  exact (bind_of_ok hrecord).trans hhydrate

end Session

end RecordGraph
