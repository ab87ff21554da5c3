import RecordGraph.Proofs.Session.Covering
import RecordGraph.Proofs.Session.Hydration

/-!
Hydration over a cache of any kind.  What was cached before may hide records, and objects of derived
classes may take over the names of others; still every object that is made is of a visible record, as
fresh proxies lead only to visible records.
-/

namespace RecordGraph

open RecordGraph.Computation

namespace Workspace

variable {base s t u : Workspace} {p : ProxyId} {o : ObjectId}

/-- One workspace comes from another by reading through proxies and making objects, over one store. -/
structure Gains (s t : Workspace) : Prop where
  populates : s.Populates t
  store : t.world.store = s.world.store
  proxies : s.world.proxies.size ≤ t.world.proxies.size
  record : ∀ q : ProxyId, q.index < s.world.proxies.size → t.world.recordOf q = s.world.recordOf q

theorem Gains.refl (s : Workspace) : s.Gains s := ⟨.refl, rfl, Nat.le_refl _, fun _ _ => rfl⟩

theorem Gains.trans (hst : s.Gains t) (htu : t.Gains u) : s.Gains u where
  populates := hst.populates.trans htu.populates
  store := htu.store.trans hst.store
  proxies := Nat.le_trans hst.proxies htu.proxies
  record q hq := (htu.record q (Nat.lt_of_lt_of_le hq hst.proxies)).trans (hst.record q hq)

/-- The state of collecting: the proxies made on the way tell of relations what the store does, and the
objects made are of visible records. -/
structure Collecting (base s : Workspace) : Prop extends Gains base s where
  truthful : s.world.Truthful base.session.registry fun q => base.world.proxies.size ≤ q.index
  visible : ∀ o : ObjectId, base.world.objects.size ≤ o.index → o.index < s.world.objects.size →
    s.world.store.Visible (s.world.object o).record

/-- A proxy that was made on the way, of a visible record. -/
structure Views (base s : Workspace) (p : ProxyId) : Prop where
  viewed : base.world.proxies.size ≤ p.index
  bound : p.index < s.world.proxies.size
  visible : s.world.store.Visible (s.world.recordOf p)

theorem Views.gain (h : base.Views s p) (hst : s.Gains t) : base.Views t p where
  viewed := h.viewed
  bound := Nat.lt_of_lt_of_le h.bound hst.proxies
  visible := by
    rw [hst.store, hst.record p h.bound]
    exact h.visible

/-- A run that goes on collecting. -/
structure Continues (base s t : Workspace) : Prop where
  gains : s.Gains t
  collecting : base.Collecting t

theorem Continues.refl (hs : base.Collecting s) : base.Continues s s := ⟨.refl s, hs⟩

theorem Continues.trans (hst : base.Continues s t) (htu : base.Continues t u) :
    base.Continues s u := ⟨hst.gains.trans htu.gains, htu.collecting⟩

/-- Nothing was collected yet. -/
theorem collecting_start (base : Workspace) : base.Collecting base where
  toGains := .refl base
  truthful :=
    ⟨fun _ hq hlt => absurd hlt (Nat.not_lt.mpr hq), fun _ hq hlt => absurd hlt (Nat.not_lt.mpr hq),
      fun _ hq hlt => absurd hlt (Nat.not_lt.mpr hq)⟩
  visible _ ho hlt := absurd hlt (Nat.not_lt.mpr ho)

theorem Collecting.hasSchema (hs : base.Collecting s) :
    s.world.hasSchema base.session.registry = base.world.hasSchema base.session.registry := by
  funext c
  unfold World.hasSchema World.registry
  rw [hs.populates.registries]

/-- Reading through proxies. -/
theorem Collecting.of_extends {w : World} (hs : base.Collecting s) (h : s.world.Extends w)
    (htruthful : w.Truthful base.session.registry fun q => base.world.proxies.size ≤ q.index) :
    base.Continues s { s with world := w } := by
  have hgains : s.Gains { s with world := w } :=
    ⟨.maintain .refl ⟨rfl, .of_eq h.registries h.objects⟩, h.store, h.size_le, h.record⟩
  refine ⟨hgains, hs.toGains.trans hgains, htruthful, fun o ho hlt => ?_⟩
  have hobject : w.object o = s.world.object o := congrArg (fun os => os.read o.index) h.objects
  dsimp only
  rw [h.store, hobject]
  exact hs.visible o ho (h.objects ▸ hlt)

/-- Loading a field of an object. -/
theorem Collecting.load (hs : base.Collecting s) (o : ObjectId) (name : String) (f : Field) :
    base.Continues s (s.load o name f) := by
  have hmaintains : s.Maintains (s.load o name f) := ⟨rfl, .changeObject s.world o rfl rfl rfl⟩
  have hgains : s.Gains (s.load o name f) :=
    ⟨.maintain .refl hmaintains, rfl, Nat.le_refl _, fun _ _ => rfl⟩
  refine ⟨hgains, hs.toGains.trans hgains, ?_, fun x hx hlt => ?_⟩
  · exact hs.truthful.of_eq rfl rfl rfl
  · have hrecord : ((s.load o name f).world.object x).record = (s.world.object x).record := by
      rw [Object.record, Object.className, hmaintains.world.type, hmaintains.world.id]
      rfl
    rw [hrecord]
    exact hs.visible x hx (hmaintains.world.objects ▸ hlt)

/-- Making the object of a record for which nothing is cached. -/
theorem Collecting.make {type : ClassType} (hs : base.Collecting s)
    (hnamed : base.registry.NamesTypes) (hp : base.Views s p)
    (hnone : s.cached? (s.world.recordOf p).className (s.world.recordOf p).id = none)
    (htype : s.registry.types.get? (s.world.recordOf p).className = some type) :
    base.Continues s (s.make type (s.world.recordOf p).id) := by
  have hgains : s.Gains (s.make type (s.world.recordOf p).id) :=
    ⟨.make .refl htype hnone, rfl, Nat.le_refl _, fun _ _ => rfl⟩
  refine ⟨hgains, hs.toGains.trans hgains, ?_, fun x hx hlt => ?_⟩
  · exact hs.truthful.of_eq rfl rfl rfl
  · rw [object_make]
    split
    · have hname : type.name = (s.world.recordOf p).className :=
        hnamed _ _ (hs.populates.registry ▸ htype)
      have hrecord : Object.record { type, id := (s.world.recordOf p).id } = s.world.recordOf p := by
        rw [Object.record, Object.className, hname]
      rw [hrecord]
      exact hp.visible
    · rename_i hold
      exact hs.visible x hx (by rw [size_make] at hlt; omega)

/-- The proxy of a record knows the schema that the registry has for the class. -/
theorem Collecting.schema (hs : base.Collecting s) (hp : base.Views s p) :
    base.registry.schema (s.world.recordOf p).className = .ok (s.world.proxy p).schema := by
  have hschema := hs.truthful.schema p hp.viewed hp.bound
  unfold World.registry at hschema
  rwa [hs.populates.registries] at hschema

theorem Continues.schema_eq (h : base.Continues s t) (hs : base.Collecting s) (hp : base.Views s p) :
    (t.world.proxy p).schema = (s.world.proxy p).schema := by
  have hlater := h.collecting.schema (hp.gain h.gains)
  rw [h.gains.record p hp.bound, hs.schema hp] at hlater
  exact (Except.ok.inj hlater).symm

/-- The objects of records were found; new ones among them wait to be loaded. -/
structure Harvests (base s : Workspace) (found : List Session.Pending) (rs : List RecordRef)
    (t : Workspace) : Prop extends Continues base s t where
  views : ∀ next ∈ found, base.Views t next.proxy
  fills : Fills base.registry.types (fun r => ∃ next ∈ found, t.world.recordOf next.proxy = r)
    s.covers rs t.covers
  uncached : found.length + t.uncached ≤ s.uncached

/-- Nothing came into the cache. -/
theorem Continues.harvests (h : base.Continues s t) (hsession : t.session = s.session) :
    Harvests base s [] [] t where
  toContinues := h
  views := by simp
  fills := by
    have hcovers : t.covers = s.covers := by
      unfold covers Workspace.cached?
      rw [hsession]
    exact hcovers ▸ .nil
  uncached := by
    unfold uncached Workspace.cached?
    rw [hsession, h.gains.store]
    simp

theorem Harvests.trans {found more : List Session.Pending} {rs rs' : List RecordRef}
    (hst : Harvests base s found rs t) (htu : Harvests base t more rs' u) :
    Harvests base s (found ++ more) (rs ++ rs') u where
  toContinues := hst.toContinues.trans htu.toContinues
  views next hnext := by
    rcases List.mem_append.mp hnext with hnext | hnext
    · exact (hst.views next hnext).gain htu.gains
    · exact htu.views next hnext
  fills := by
    refine (hst.fills.imp fun r ⟨next, hnext, hr⟩ => ?_).append
      (htu.fills.imp fun r ⟨next, hnext, hr⟩ => ⟨next, List.mem_append_right _ hnext, hr⟩)
    exact ⟨next, List.mem_append_left _ hnext,
      (htu.gains.record next.proxy (hst.views next hnext).bound).trans hr⟩
  uncached := by
    have hfirst := hst.uncached
    have hrest := htu.uncached
    rw [List.length_append]
    omega

end Workspace

namespace Session

open Workspace

variable {base s t : Workspace} {p : ProxyId} {o : ObjectId} {next : Pending}
  {pending found : List Pending}

/-! ### Finding objects -/

/-- The object of a record is the cached one, or a new one that is cached for the record and waits. -/
theorem objectOf_collects {new : Bool} (hs : base.Collecting s) (hnamed : base.registry.NamesTypes)
    (hp : base.Views s p) (hrun : objectOf p s = (.ok (o, new), t)) :
    Harvests base s (news [(p, o, new)]) [s.world.recordOf p] t
      ∧ t.cached? (s.world.recordOf p).className (s.world.recordOf p).id = some o := by
  rw [objectOf, bind_of_ok (get_apply s)] at hrun
  cases hcached : s.cached? (s.world.recordOf p).className (s.world.recordOf p).id with
  | some x =>
    simp only [hcached] at hrun
    obtain ⟨heq, rfl⟩ := Prod.mk.inj hrun
    cases heq
    have hcovered : s.covers (s.world.recordOf p) := Option.isSome_iff_exists.mpr ⟨o, hcached⟩
    exact ⟨⟨.refl hs, by simp [news], .covered hcovered .nil, by simp [news]⟩, hcached⟩
  | none =>
    simp only [hcached] at hrun
    obtain ⟨x, s₁, hmake, hpure⟩ := bind_eq_ok.mp hrun
    obtain ⟨heq, rfl⟩ := Prod.mk.inj hpure
    cases heq
    obtain ⟨type, htype, rfl, rfl⟩ := instantiate_run hmake
    have hmade := hs.make hnamed hp hcached htype
    have hknown : base.registry.types.get? (s.world.recordOf p).className = some type :=
      hs.populates.registry ▸ htype
    have hname := hnamed _ _ hknown
    refine ⟨⟨hmade, fun other hother => ?_, ?_, ?_⟩, ?_⟩
    · rw [List.mem_singleton.mp hother]
      exact hp.gain hmade.gains
    · refine .make (fun hcovered => ?_) hknown ⟨⟨p, _⟩, List.mem_singleton_self _, rfl⟩ ?_
      · rw [covers, hcached] at hcovered
        cases hcovered
      · rw [covers_make]
        exact .nil
    · have hless := uncached_make hp.visible.mem_allRecords hcached hname
      change 1 + _ ≤ _
      omega
    · rw [cached?_make, if_pos ⟨hname ▸ ClassType.name_mem_names type, rfl⟩]

theorem mapM_objectOf_collects {ps : List ProxyId} {results : List (ProxyId × ObjectId × Bool)}
    (hs : base.Collecting s) (hnamed : base.registry.NamesTypes) (hps : ∀ p ∈ ps, base.Views s p)
    (hrun : (ps.mapM fun p => do pure (p, ← objectOf p) :
      SessionM (List (ProxyId × ObjectId × Bool))) s = (.ok results, t)) :
    Harvests base s (news results) (ps.map s.world.recordOf) t := by
  refine mapM_run (fun done results u => Harvests base s (news results) (done.map s.world.recordOf) u)
    hrun ((Continues.refl hs).harvests rfl) ?_
  rintro done results p x a b hp hdone hstep
  obtain ⟨⟨o, new⟩, c, hobject, hpure⟩ := bind_eq_ok.mp hstep
  obtain ⟨heq, rfl⟩ := Prod.mk.inj hpure
  obtain rfl : (p, o, new) = x := Except.ok.inj heq
  obtain ⟨hnext, -⟩ :=
    objectOf_collects hdone.collecting hnamed ((hps p hp).gain hdone.gains) hobject
  rw [hdone.gains.record p (hps p hp).bound] at hnext
  rw [List.map_append, news_append]
  exact hdone.trans hnext

/-! ### Loading fields -/

theorem loadAttribute_collects {name : String} {u : Unit} (hs : base.Collecting s)
    (hrun : loadAttribute next name s = (.ok u, t)) :
    Harvests base s [] [] t
      ∧ ∃ a v, (s.world.proxy next.proxy).schema.attribute? name = some a
        ∧ s.world.store.read (s.world.recordOf next.proxy) name a.getter = .ok v := by
  obtain ⟨v, s₁, hget, hload⟩ := bind_eq_ok.mp hrun
  obtain ⟨-, rfl⟩ := Prod.mk.inj hload
  rw [act_apply] at hget
  cases hname : (s.world.proxy next.proxy).schema.attribute? name with
  | none =>
    rw [ProxyId.getAttribute_of_unknown hname] at hget
    cases (Prod.mk.inj hget).1
  | some a =>
    rw [ProxyId.getAttribute_apply hname] at hget
    obtain ⟨hread, rfl⟩ := Prod.mk.inj hget
    exact ⟨(hs.load next.object name (.value v)).harvests rfl, a, v, rfl, hread⟩

/-- A relation of a fresh proxy leads to the visible records that the store resolves it to. -/
theorem getRelation_collects {name : String} {related : Related} (hs : base.Collecting s)
    (hp : base.Views s p) (hrun : act (p.getRelation name) s = (.ok related, t)) :
    Harvests base s [] [] t ∧ (∀ q ∈ related.targets, base.Views t q)
      ∧ ∃ r, (s.world.proxy p).schema.relation? name = some r
        ∧ related.targets.map t.world.recordOf = base.resolve (s.world.recordOf p) r := by
  obtain ⟨hget, ht⟩ := act_eq_ok hrun
  cases hname : (s.world.proxy p).schema.relation? name with
  | none =>
    rw [ProxyId.getRelation_of_unknown hname] at hget
    cases (Prod.mk.inj hget).1
  | some r =>
    obtain ⟨related', w, hgot, hextends, htruthful, hresolves⟩ :=
      ProxyId.getRelation_run (fun q hq => Nat.le_trans hs.proxies hq) hs.truthful hp.viewed hp.bound
        hname
    obtain ⟨heq, hw⟩ := Prod.mk.inj (hget.symm.trans hgot)
    obtain rfl : related = related' := Except.ok.inj heq
    rw [ht, hw]
    have hrecords : related.targets.map w.recordOf = base.resolve (s.world.recordOf p) r := by
      rw [hresolves.records, hextends.store, hs.store, hextends.hasSchema_eq, hs.hasSchema,
        hextends.record p hp.bound]
      rfl
    refine ⟨(hs.of_extends hextends htruthful).harvests rfl,
      fun q hq => ⟨(hresolves.viewed q hq).1, (hresolves.viewed q hq).2, ?_⟩, r, rfl, hrecords⟩
    have hmem : w.recordOf q ∈ related.targets.map w.recordOf := List.mem_map_of_mem hq
    rw [hresolves.records] at hmem
    cases hresolve : w.store.resolve (w.hasSchema base.session.registry) (w.recordOf p) r with
    | none => simp [hresolve] at hmem
    | some ts =>
      rw [hresolve] at hmem
      exact (Store.visible_of_mem_resolve hresolve hmem).1

/-- Loading a relation finds the objects of the records that it leads to. -/
theorem loadRelation_collects {r : Relation} (hs : base.Collecting s)
    (hnamed : base.registry.NamesTypes) (hp : base.Views s next.proxy)
    (hrun : loadRelation next r s = (.ok found, t)) :
    ((s.world.proxy next.proxy).schema.relation? r.name).isSome = true
      ∧ Harvests base s found
        (base.leadsBy (s.world.recordOf next.proxy) (s.world.proxy next.proxy).schema r) t := by
  obtain ⟨related, s₁, hget, hrun⟩ := bind_eq_ok.mp hrun
  obtain ⟨hread, htargets, named, hnamedAs, hrecords⟩ := getRelation_collects hs hp hget
  obtain ⟨results, s₂, hmapM, hrun⟩ := bind_eq_ok.mp hrun
  have hfinds := mapM_objectOf_collects hread.collecting hnamed htargets hmapM
  obtain ⟨_, s₃, hload, hpure⟩ := bind_eq_ok.mp hrun
  obtain ⟨-, rfl⟩ := Prod.mk.inj hload
  obtain ⟨heq, rfl⟩ := Prod.mk.inj hpure
  obtain rfl : found = news results := (Except.ok.inj heq).symm
  have hloaded := (hfinds.collecting.load next.object r.name
    (if r.multivalue then .objects (results.map fun x => x.2.1)
      else .ofTarget? (results.map fun x => x.2.1).getLast?)).harvests rfl
  have hall := hread.trans (hfinds.trans hloaded)
  rw [List.nil_append, List.append_nil, List.nil_append, List.append_nil, hrecords] at hall
  unfold leadsBy
  rw [hnamedAs]
  exact ⟨rfl, hall⟩

theorem forM_loadAttribute_collects {names : List String} {u : PUnit} (hs : base.Collecting s)
    (hp : base.Views s next.proxy) (hrun : names.forM (loadAttribute next) s = (.ok u, t)) :
    Harvests base s [] [] t ∧ ∀ name ∈ names, ∃ a v,
      (s.world.proxy next.proxy).schema.attribute? name = some a
        ∧ base.world.store.read (s.world.recordOf next.proxy) name a.getter = .ok v := by
  refine forM_run (fun done u => Harvests base s [] [] u ∧ ∀ name ∈ done, ∃ a v,
    (s.world.proxy next.proxy).schema.attribute? name = some a
      ∧ base.world.store.read (s.world.recordOf next.proxy) name a.getter = .ok v) hrun
    ⟨(Continues.refl hs).harvests rfl, by simp⟩ ?_
  rintro done name x y - ⟨hdone, hall⟩ hstep
  obtain ⟨hnext, a, v, hname, hvalue⟩ := loadAttribute_collects hdone.collecting hstep
  rw [hdone.schema_eq hs hp] at hname
  rw [hdone.collecting.store, hdone.gains.record _ hp.bound] at hvalue
  refine ⟨hdone.trans hnext, fun other hother => ?_⟩
  rcases List.mem_append.mp hother with hother | hother
  · exact hall other hother
  · exact List.mem_singleton.mp hother ▸ ⟨a, v, hname, hvalue⟩

theorem mapM_loadRelation_collects {rs : List Relation} {lists : List (List Pending)}
    (hs : base.Collecting s) (hnamed : base.registry.NamesTypes) (hp : base.Views s next.proxy)
    (hrun : rs.mapM (loadRelation next) s = (.ok lists, t)) :
    (∀ r ∈ rs, ((s.world.proxy next.proxy).schema.relation? r.name).isSome = true)
      ∧ Harvests base s lists.flatten (rs.flatMap
        (base.leadsBy (s.world.recordOf next.proxy) (s.world.proxy next.proxy).schema)) t := by
  refine mapM_run (fun done lists u =>
    (∀ r ∈ done, ((s.world.proxy next.proxy).schema.relation? r.name).isSome = true)
      ∧ Harvests base s lists.flatten (done.flatMap
        (base.leadsBy (s.world.recordOf next.proxy) (s.world.proxy next.proxy).schema)) u) hrun
    ⟨by simp, (Continues.refl hs).harvests rfl⟩ ?_
  rintro done lists r list a b - ⟨hall, hdone⟩ hstep
  obtain ⟨hname, hnext⟩ :=
    loadRelation_collects hdone.collecting hnamed (hp.gain hdone.gains) hstep
  rw [hdone.schema_eq hs hp] at hname hnext
  rw [hdone.gains.record _ hp.bound] at hnext
  rw [List.flatten_append, List.flatten_singleton, List.flatMap_append, List.flatMap_singleton]
  refine ⟨fun other hother => ?_, hdone.trans hnext⟩
  rcases List.mem_append.mp hother with hother | hother
  · exact hall other hother
  · exact List.mem_singleton.mp hother ▸ hname

/-- Loading the fields of a record reads its attributes, and finds the objects of the records that it
leads to. -/
theorem loadFields_collects (hs : base.Collecting s) (hnamed : base.registry.NamesTypes)
    (hp : base.Views s next.proxy) (hrun : loadFields next s = (.ok found, t)) :
    base.Legible (s.world.recordOf next.proxy) (s.world.proxy next.proxy).schema
      ∧ Harvests base s found
        (base.leads (s.world.recordOf next.proxy) (s.world.proxy next.proxy).schema) t := by
  rw [loadFields, bind_of_ok (get_apply s)] at hrun
  obtain ⟨_, s₁, hattributes, hrun⟩ := bind_eq_ok.mp hrun
  obtain ⟨lists, s₂, hrelations, hpure⟩ := bind_eq_ok.mp hrun
  obtain ⟨heq, rfl⟩ := Prod.mk.inj hpure
  obtain rfl : lists.flatten = found := Except.ok.inj heq
  obtain ⟨hfirst, hread⟩ := forM_loadAttribute_collects hs hp hattributes
  obtain ⟨hnames, hsecond⟩ :=
    mapM_loadRelation_collects hfirst.collecting hnamed (hp.gain hfirst.gains) hrelations
  rw [hfirst.schema_eq hs hp] at hnames hsecond
  rw [hfirst.gains.record _ hp.bound] at hsecond
  exact ⟨⟨hs.schema hp, hread, hnames⟩, hfirst.trans hsecond⟩

/-- Loading what waits.  Enough steps reach all of it. -/
theorem loadPending_collects (steps : Nat) {u : Unit} (hs : base.Collecting s)
    (hnamed : base.registry.NamesTypes) (hpending : ∀ next ∈ pending, base.Views s next.proxy)
    (hrun : loadPending steps pending s = (.ok u, t)) :
    base.Continues s t ∧ (pending.length + s.uncached ≤ steps → ∀ next ∈ pending,
      base.Legible (s.world.recordOf next.proxy) (s.world.proxy next.proxy).schema) := by
  induction steps generalizing s pending with
  | zero =>
    obtain ⟨-, rfl⟩ := Prod.mk.inj hrun
    refine ⟨.refl hs, fun hsteps next hnext => ?_⟩
    rw [List.eq_nil_of_length_eq_zero (by omega : pending.length = 0)] at hnext
    cases hnext
  | succ steps ih =>
    cases pending with
    | nil =>
      obtain ⟨-, rfl⟩ := Prod.mk.inj hrun
      exact ⟨.refl hs, by simp⟩
    | cons first pending =>
      obtain ⟨found, s₁, hload, hrest⟩ := bind_eq_ok.mp hrun
      obtain ⟨hlegible, hfirst⟩ :=
        loadFields_collects hs hnamed (hpending first List.mem_cons_self) hload
      have hviews : ∀ next ∈ pending, base.Views s next.proxy := fun next hnext =>
        hpending next (List.mem_cons_of_mem first hnext)
      obtain ⟨hnext, hreached⟩ := ih hfirst.collecting (fun other hother => by
        rcases List.mem_append.mp hother with hother | hother
        · exact hfirst.views other (List.mem_reverse.mp hother)
        · exact (hviews other hother).gain hfirst.gains) hrest
      refine ⟨hfirst.toContinues.trans hnext, fun hsteps other hother => ?_⟩
      rcases List.mem_cons.mp hother with rfl | hother
      · exact hlegible
      · have hless := hfirst.uncached
        have hlater := hreached (by
          rw [List.length_cons] at hsteps
          rw [List.length_append, List.length_reverse]
          omega) other (List.mem_append_right _ hother)
        rwa [hfirst.gains.record _ (hviews other hother).bound,
          hfirst.schema_eq hs (hviews other hother)] at hlater

/-- The object of a record is cached for it before its fields are loaded. -/
theorem hydrate_collects (hs : base.Collecting s) (hnamed : base.registry.NamesTypes)
    (hp : base.Views s p) (hrun : hydrate p s = (.ok o, t)) :
    base.Continues s t ∧ ∃ m, base.Continues s m ∧ m.Gains t
      ∧ m.cached? (s.world.recordOf p).className (s.world.recordOf p).id = some o := by
  obtain ⟨⟨x, new⟩, m, hfind, hrest⟩ := bind_eq_ok.mp hrun
  obtain ⟨hfirst, hcached⟩ := objectOf_collects hs hnamed hp hfind
  cases new with
  | false =>
    obtain ⟨heq, rfl⟩ := Prod.mk.inj hrest
    cases heq
    exact ⟨hfirst.toContinues, m, hfirst.toContinues, .refl m, hcached⟩
  | true =>
    simp only [if_true] at hrest
    rw [bind_of_ok (get_apply m)] at hrest
    obtain ⟨_, s₁, hload, hpure⟩ := bind_eq_ok.mp hrest
    obtain ⟨heq, rfl⟩ := Prod.mk.inj hpure
    cases heq
    obtain ⟨hloaded, -⟩ := loadPending_collects _ hfirst.collecting hnamed hfirst.views hload
    exact ⟨hfirst.toContinues.trans hloaded, m, hfirst.toContinues, hloaded.gains, hcached⟩

/-- Making a proxy for a record. -/
theorem proxyFor_collects {r : RecordRef} (hs : base.Collecting s) (hr : s.world.store.Visible r)
    (hrun : proxyFor r s = (.ok p, t)) :
    base.Continues s t ∧ base.Views t p ∧ t.world.recordOf p = r := by
  obtain ⟨schema, hschema, rfl, rfl⟩ := proxyFor_eq_ok hrun
  have hknown : (s.world.registry base.session.registry).schema r.className = .ok schema :=
    hs.populates.registryId ▸ hschema
  have htruthful : (s.world.pushProxy
      { record := r, schema, registry := base.session.registry }).Truthful base.session.registry
        fun q => base.world.proxies.size ≤ q.index := hs.truthful.pushProxy hknown
  rw [← hs.populates.registryId] at htruthful
  have hrecord : (s.world.pushProxy
      { record := r, schema, registry := s.session.registry }).recordOf ⟨s.world.proxies.size⟩
        = r := by simp [World.recordOf, World.proxy_pushProxy]
  refine ⟨hs.of_extends (World.extends_pushProxy _ _) (hs.populates.registryId ▸ htruthful),
    ⟨hs.proxies, by simp [World.pushProxy], ?_⟩, hrecord⟩
  dsimp only
  rw [hrecord]
  exact hr

/-- Listing the records of a class makes a proxy for each. -/
theorem records_collects {className : String} {ps : List ProxyId} (hs : base.Collecting s)
    (hrun : records className s = (.ok ps, t)) :
    ∃ rs, s.world.store.records className = .ok rs ∧ base.Continues s t
      ∧ (∀ p ∈ ps, base.Views t p) ∧ ps.map t.world.recordOf = rs := by
  obtain ⟨rs, s₁, hget, hproxies⟩ := bind_eq_ok.mp hrun
  obtain ⟨hrecords, rfl⟩ := askStore_run hget
  refine ⟨rs, hrecords, mapM_run (fun done ps t => base.Continues s t ∧ (∀ p ∈ ps, base.Views t p)
    ∧ ps.map t.world.recordOf = done) hproxies ⟨.refl hs, by simp, rfl⟩ ?_⟩
  rintro done ps r p a b hr ⟨hdone, hviews, hmap⟩ hstep
  have hvisible := (Store.listed_of_mem_records hrecords hr).visible
  rw [← hdone.gains.store] at hvisible
  obtain ⟨hnext, hview, hrecord⟩ := proxyFor_collects hdone.collecting hvisible hstep
  refine ⟨hdone.trans hnext, fun q hq => ?_, ?_⟩
  · rcases List.mem_append.mp hq with hq | hq
    · exact (hviews q hq).gain hnext.gains
    · exact List.mem_singleton.mp hq ▸ hview
  · rw [List.map_append, List.map_singleton, hrecord, ← hmap]
    refine congrArg (· ++ [r]) (List.map_congr_left fun q hq => ?_)
    exact hnext.gains.record q (hviews q hq).bound

end Session

end RecordGraph
