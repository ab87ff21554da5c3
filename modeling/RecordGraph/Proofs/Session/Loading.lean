import RecordGraph.Proofs.Session.Mirror

/-!
Loading the fields of one object.  Every related record gets its object, which is the cached one or a
new one that waits; afterwards the loaded object mirrors its record.
-/

namespace RecordGraph

open RecordGraph.Computation Workspace

namespace Session

variable {base s t u : Workspace} {D : RecordRef → Prop} {pending : List Pending}
  {found : List (ProxyId × ObjectId × Bool)} {next : Pending}

/-! ### Finding objects -/

/-- What waits because of the objects that were found for proxies. -/
def news (found : List (ProxyId × ObjectId × Bool)) : List Pending :=
  found.filterMap fun (p, o, new) => if new then some ⟨p, o⟩ else none

theorem news_append (found more : List (ProxyId × ObjectId × Bool)) :
    news (found ++ more) = news found ++ news more := List.filterMap_append

/-- Objects were found for proxies: each stands for the record of its proxy, and the new ones wait. -/
structure Finds (base : Workspace) (D : RecordRef → Prop) (pending : List Pending) (s : Workspace)
    (found : List (ProxyId × ObjectId × Bool)) (t : Workspace) : Prop where
  hydrating : Hydrating base D (news found ++ pending) t
  grows : s.Grows t
  proxies : t.world.proxies = s.world.proxies
  stands : ∀ x ∈ found, t.Stands x.2.1 ∧ (t.world.object x.2.1).record = s.world.recordOf x.1
  kept : ∀ o : ObjectId, o.index < s.world.objects.size → t.world.object o = s.world.object o
  uncached : (news found).length + t.uncached ≤ s.uncached

theorem Finds.nil (hs : Hydrating base D pending s) : Finds base D pending s [] s :=
  ⟨hs, .refl s, rfl, by simp, fun _ _ => rfl, by simp [news]⟩

theorem Finds.append {more : List (ProxyId × ObjectId × Bool)}
    (hst : Finds base D pending s found t) (htu : Finds base D (news found ++ pending) t more u) :
    Finds base D pending s (found ++ more) u where
  hydrating := htu.hydrating.of_mem_iff fun other => by
    simp only [news_append, List.mem_append]
    exact or_left_comm.trans or_assoc.symm
  grows := hst.grows.trans htu.grows
  proxies := htu.proxies.trans hst.proxies
  stands x hx := by
    rcases List.mem_append.mp hx with hx | hx
    · obtain ⟨hstands, hrecord⟩ := hst.stands x hx
      exact ⟨htu.grows.stands hstands, (htu.grows.recordOf hstands.bound).trans hrecord⟩
    · obtain ⟨hstands, hrecord⟩ := htu.stands x hx
      refine ⟨hstands, hrecord.trans ?_⟩
      unfold World.recordOf World.proxy
      rw [hst.proxies]
  kept o ho := (htu.kept o (Nat.lt_of_lt_of_le ho hst.grows.objects)).trans (hst.kept o ho)
  uncached := by
    have hfirst := hst.uncached
    have hrest := htu.uncached
    rw [news_append, List.length_append]
    omega

/-- The object that is cached for a record of the domain stands for that record. -/
theorem cached_stands (hs : Hydrating base D pending s) (hd : Hydratable base D) {r : RecordRef}
    {o : ObjectId} (hr : D r) (hcached : s.cached? r.className r.id = some o) :
    s.Stands o ∧ (s.world.object o).record = r := by
  have hindexed := hs.cached _ _ o hcached
  have htype := hindexed.stands.type
  rw [hs.grown.registry] at htype
  obtain ⟨-, -, hshows⟩ := hd.current.types _ _ htype
  exact ⟨hindexed.stands, hd.free _ _ hindexed.domain hr hindexed.id
    (hshows.isA_of_mem_names hindexed.className)⟩

theorem objectOf_run {p : ProxyId} {o : ObjectId} {new : Bool} (hs : Hydrating base D pending s)
    (hd : Hydratable base D) (hviewed : base.world.proxies.size ≤ p.index)
    (hlt : p.index < s.world.proxies.size) (hD : D (s.world.recordOf p))
    (hrun : objectOf p s = (.ok (o, new), t)) : Finds base D pending s [(p, o, new)] t := by
  rw [objectOf, bind_of_ok (get_apply s)] at hrun
  cases hcached : s.cached? (s.world.recordOf p).className (s.world.recordOf p).id with
  | some o' =>
    simp only [hcached, pure_apply] at hrun
    obtain ⟨heq, rfl⟩ := Prod.mk.inj hrun
    cases heq
    obtain ⟨hstands, hrecord⟩ := cached_stands hs hd hD hcached
    exact ⟨hs, .refl s, rfl, by simp [hstands, hrecord], fun _ _ => rfl, by simp [news]⟩
  | none =>
    simp only [hcached] at hrun
    obtain ⟨o', t', hinstantiate, hpure⟩ := bind_eq_ok.mp hrun
    obtain ⟨heq, rfl⟩ := Prod.mk.inj hpure
    cases heq
    obtain ⟨type, htype, rfl, rfl⟩ := instantiate_run hinstantiate
    obtain ⟨hgrows, hhydrating, hstands, hrecord, huncached⟩ :=
      hs.make hd hviewed hlt hD hcached htype
    refine ⟨hhydrating, hgrows, rfl, ?_, fun o ho => object_make_of_lt ho, ?_⟩
    · intro x hx
      obtain rfl := List.mem_singleton.mp hx
      exact ⟨hstands, hrecord⟩
    · change 1 + _ ≤ _
      omega

/-- Finding the objects of proxies one after the other. -/
theorem mapM_objectOf_run {ps : List ProxyId} (hs : Hydrating base D pending s)
    (hd : Hydratable base D)
    (hps : ∀ p ∈ ps, base.world.proxies.size ≤ p.index ∧ p.index < s.world.proxies.size
      ∧ D (s.world.recordOf p))
    (hrun : (ps.mapM fun p => do pure (p, ← objectOf p) :
      SessionM (List (ProxyId × ObjectId × Bool))) s = (.ok found, t)) :
    Finds base D pending s found t ∧ found.map Prod.fst = ps := by
  refine mapM_run (fun done results t => Finds base D pending s results t
    ∧ results.map Prod.fst = done) hrun ⟨.nil hs, rfl⟩ ?_
  rintro done results p x a b hp ⟨hfinds, hfirst⟩ hstep
  obtain ⟨⟨o, new⟩, b', hobject, hpure⟩ := bind_eq_ok.mp hstep
  obtain ⟨heq, rfl⟩ := Prod.mk.inj hpure
  cases heq
  obtain ⟨hviewed, hlt, hD⟩ := hps p hp
  have hrecord : a.world.recordOf p = s.world.recordOf p := hfinds.grows.record p hlt
  have hlast := objectOf_run hfinds.hydrating hd hviewed (hfinds.proxies ▸ hlt) (hrecord ▸ hD) hobject
  exact ⟨hfinds.append hlast, by rw [List.map_append, hfirst]; rfl⟩

/-! ### Loading fields -/

/-- Fields of a waiting object were loaded, and more objects came to wait. -/
structure Loads (base : Workspace) (D : RecordRef → Prop) (next : Pending) (pending : List Pending)
    (s : Workspace) (found : List Pending) (t : Workspace) : Prop where
  hydrating : Hydrating base D (next :: (found ++ pending)) t
  grows : s.Grows t
  uncached : found.length + t.uncached ≤ s.uncached

theorem Loads.refl (hs : Hydrating base D (next :: pending) s) : Loads base D next pending s [] s :=
  ⟨hs, .refl s, by simp⟩

theorem Loads.trans {found more : List Pending} (hst : Loads base D next pending s found t)
    (htu : Loads base D next (found ++ pending) t more u) :
    Loads base D next pending s (found ++ more) u where
  hydrating := htu.hydrating.of_mem_iff fun other => by
    simp only [List.mem_cons, List.mem_append]
    exact or_congr_right (or_left_comm.trans or_assoc.symm)
  grows := hst.grows.trans htu.grows
  uncached := by
    have hfirst := hst.uncached
    have hrest := htu.uncached
    rw [List.length_append]
    omega

/-- The proxy of a waiting object knows the schema of the object. -/
theorem schema_of_waiting (hs : Hydrating base D (next :: pending) s) (hd : Hydratable base D) :
    (s.world.proxy next.proxy).schema = (s.world.object next.object).schema := by
  obtain ⟨hstands, hviewed, hlt, hrecord⟩ := hs.waiting next List.mem_cons_self
  have hproxy := hs.truthful.schema next.proxy hviewed hlt
  rw [← hs.grown.registryId, hrecord] at hproxy
  have htype := hstands.type
  rw [hs.grown.registry] at htype
  obtain ⟨-, hobject, -⟩ := hd.current.types _ _ htype
  rw [← hs.grown.registry] at hobject
  exact Option.some.inj ((Registry.schema_eq_ok.mp hproxy).symm.trans hobject)

theorem wellNamed_of_waiting (hs : Hydrating base D (next :: pending) s) (hd : Hydratable base D) :
    (s.world.object next.object).schema.WellNamed := by
  obtain ⟨hstands, -, -, -⟩ := hs.waiting next List.mem_cons_self
  have htype := hstands.type
  rw [hs.grown.registry] at htype
  obtain ⟨-, hobject, -⟩ := hd.current.types _ _ htype
  exact hd.current.wellNamed hobject

theorem loadAttribute_run {name : String} {a : Attribute} {v : Unit}
    (hs : Hydrating base D (next :: pending) s) (hd : Hydratable base D)
    (hname : (s.world.object next.object).schema.attribute? name = some a)
    (hrun : loadAttribute next name s = (.ok v, t)) :
    Loads base D next pending s [] t ∧ t.ShowsAttribute next.object name a
      ∧ ∀ other, other ≠ name →
        (t.world.object next.object).shown other = (s.world.object next.object).shown other := by
  obtain ⟨hstands, -, -, hrecord⟩ := hs.waiting next List.mem_cons_self
  obtain ⟨v, s₁, hget, hload⟩ := bind_eq_ok.mp hrun
  rw [act_apply, ProxyId.getAttribute_apply ((schema_of_waiting hs hd).symm ▸ hname)] at hget
  obtain ⟨hread, rfl⟩ := Prod.mk.inj hget
  obtain ⟨-, rfl⟩ := Prod.mk.inj hload
  have hgrows := grows_load s next.object name (.value v)
  have hobject : (s.load next.object name (.value v)).world.object next.object
      = (s.world.object next.object).load name (.value v) := by
    rw [object_load, if_pos ⟨rfl, hstands.bound⟩]
  refine ⟨⟨hs.load name _, hgrows, by rw [List.length_nil, Nat.zero_add]; exact Nat.le_refl _⟩,
    ⟨v, ?_, ?_⟩, ?_⟩
  · rw [hrecord] at hread
    exact (congrArg (fun r => s.world.store.read r name a.getter)
      (hgrows.recordOf hstands.bound)).trans hread
  · exact (congrArg (Object.shown · name) hobject).trans (by rw [Object.shown_load, if_pos rfl])
  · intro other hother
    exact (congrArg (Object.shown · other) hobject).trans
      (by rw [Object.shown_load, if_neg hother])

/-- Reading a relation of a waiting object gives proxies for the records that the relation leads to,
which the domain holds. -/
theorem getRelation_waiting {r : Relation} (hs : Hydrating base D (next :: pending) s)
    (hd : Hydratable base D)
    (hr : r ∈ (s.world.object next.object).schema.relations.values) :
    ∃ related w, next.proxy.getRelation r.name s.world = (.ok related, w) ∧ s.world.Extends w
      ∧ Hydrating base D (next :: pending) { s with world := w }
      ∧ related.targets.map w.recordOf = s.resolve (s.world.object next.object).record r
      ∧ ∀ p ∈ related.targets, base.world.proxies.size ≤ p.index ∧ p.index < w.proxies.size
        ∧ D (w.recordOf p) := by
  obtain ⟨hstands, hviewed, hlt, hrecord⟩ := hs.waiting next List.mem_cons_self
  have hname := (wellNamed_of_waiting hs hd).relation?_of_mem hr
  rw [← schema_of_waiting hs hd] at hname
  obtain ⟨related, w, hget, hextends, htruthful, hresolves⟩ :=
    ProxyId.getRelation_run (fun q hq => Nat.le_trans hs.grown.proxies hq) hs.truthful hviewed hlt
      hname
  have hrecords : related.targets.map w.recordOf
      = s.resolve (s.world.object next.object).record r := by
    rw [hresolves.records, hextends.store, hextends.hasSchema_eq, hextends.record _ hlt, hrecord,
      ← hs.grown.registryId]
    rfl
  refine ⟨related, w, hget, hextends, hs.of_extends hextends htruthful, hrecords, ?_⟩
  intro p hp
  have htype := hstands.type
  rw [hs.grown.registry] at htype
  obtain ⟨-, hschema, -⟩ := hd.current.types _ _ htype
  refine ⟨(hresolves.viewed p hp).1, (hresolves.viewed p hp).2,
    hd.closed _ _ r _ (hs.domain hstands).2 hschema hr ?_⟩
  rw [← hs.grown.resolve, ← hrecords]
  exact List.mem_map_of_mem hp

/-- What a loaded field makes an object show: the loaded field, and elsewhere what it showed. -/
theorem shown_load_of_lt {o : ObjectId} {name other : String} {f : Field}
    (hbound : o.index < s.world.objects.size) :
    ((s.load o name f).world.object o).shown other
      = if other = name then f.settled else (s.world.object o).shown other := by
  rw [object_load, if_pos ⟨rfl, hbound⟩, Object.shown_load]

/-- An object shows a relation once the objects of the records are loaded that it leads to. -/
theorem showsRelation_load {o : ObjectId} {r : Relation} {objects : List ObjectId}
    (hgrown : s.Grows t) (hstands : s.Stands o) (hall : ∀ p ∈ objects, t.Stands p)
    (hrecords : objects.map (fun p => (t.world.object p).record)
      = s.resolve (s.world.object o).record r) :
    (t.load o r.name (.ofTargets r.multivalue objects)).ShowsRelation o r := by
  have hloads := grows_load t o r.name (.ofTargets r.multivalue objects)
  have hwhole := hgrown.trans hloads
  refine ⟨objects, ?_, ?_, fun p hp => hloads.stands (hall p hp)⟩
  · rw [shown_load_of_lt (Nat.lt_of_lt_of_le hstands.bound hgrown.objects), if_pos rfl,
      Field.settled_ofTargets]
  · rw [hwhole.resolve, hwhole.recordOf hstands.bound, ← hrecords]
    exact List.map_congr_left fun p hp => hloads.recordOf (hall p hp).bound

theorem loadRelation_run {r : Relation} {found : List Pending}
    (hs : Hydrating base D (next :: pending) s) (hd : Hydratable base D)
    (hr : r ∈ (s.world.object next.object).schema.relations.values)
    (hrun : loadRelation next r s = (.ok found, t)) :
    Loads base D next pending s found t ∧ t.ShowsRelation next.object r
      ∧ ∀ other, other ≠ r.name →
        (t.world.object next.object).shown other = (s.world.object next.object).shown other := by
  obtain ⟨hstands, -⟩ := hs.waiting next List.mem_cons_self
  obtain ⟨related, w, hget, hextends, hread, hrecords, htargets⟩ := getRelation_waiting hs hd hr
  rw [loadRelation, bind_of_ok (act_of_run hget)] at hrun
  have hreads := grows_of_extends hextends
  obtain ⟨found', s₁, hmapM, hrun⟩ := bind_eq_ok.mp hrun
  obtain ⟨hfinds, hfirst⟩ := mapM_objectOf_run hread hd htargets hmapM
  obtain ⟨_, s₂, hload, hpure⟩ := bind_eq_ok.mp hrun
  obtain ⟨-, rfl⟩ := Prod.mk.inj hload
  obtain ⟨heq, rfl⟩ := Prod.mk.inj hpure
  obtain rfl : found = news found' := (Except.ok.inj heq).symm
  have hfield : (if r.multivalue then Field.objects (found'.map fun x => x.2.1)
      else .ofTarget? (found'.map fun x => x.2.1).getLast?)
        = .ofTargets r.multivalue (found'.map fun x => x.2.1) := rfl
  rw [hfield]
  have hwaits : Hydrating base D (next :: (news found' ++ pending)) s₁ :=
    hfinds.hydrating.of_mem_iff fun other => by
      simp only [List.mem_cons, List.mem_append]
      exact or_left_comm
  have hgrown := hreads.trans hfinds.grows
  have hkept : s₁.world.object next.object = s.world.object next.object := by
    rw [hfinds.kept next.object (Nat.lt_of_lt_of_le hstands.bound hreads.objects)]
    unfold World.object
    rw [hextends.objects]
  refine ⟨⟨hwaits.load r.name _, hgrown.trans (grows_load _ _ _ _), ?_⟩, ?_, ?_⟩
  · have hsame : Workspace.uncached { s with world := w } = s.uncached := by
      unfold Workspace.uncached
      rw [hextends.store]
      rfl
    exact hsame ▸ hfinds.uncached
  · refine showsRelation_load hgrown hstands (fun p hp => ?_) ?_
    · obtain ⟨x, hx, rfl⟩ := List.mem_map.mp hp
      exact (hfinds.stands x hx).1
    · rw [← hrecords, ← hfirst, List.map_map, List.map_map]
      exact List.map_congr_left fun x hx => (hfinds.stands x hx).2
  · intro other hother
    exact (shown_load_of_lt (Nat.lt_of_lt_of_le hstands.bound hgrown.objects)).trans
      (by rw [if_neg hother, hkept])

/-- The schema of a waiting object stays what it is while the object is loaded. -/
theorem Loads.schema_eq {found : List Pending} (h : Loads base D next pending s found t)
    (hs : Hydrating base D (next :: pending) s) :
    (t.world.object next.object).schema = (s.world.object next.object).schema := by
  obtain ⟨hstands, -⟩ := hs.waiting next List.mem_cons_self
  unfold Object.schema
  rw [h.grows.type hstands.bound]

theorem forM_loadAttribute_run {names : List String} {v : PUnit}
    (hs : Hydrating base D (next :: pending) s) (hd : Hydratable base D)
    (hnames : ∀ name ∈ names, ∃ a, (s.world.object next.object).schema.attribute? name = some a)
    (hrun : names.forM (loadAttribute next) s = (.ok v, t)) :
    Loads base D next pending s [] t ∧ ∀ name ∈ names, ∀ a,
      (s.world.object next.object).schema.attribute? name = some a →
        t.ShowsAttribute next.object name a := by
  refine forM_run (fun done t => Loads base D next pending s [] t ∧ ∀ name ∈ done, ∀ a,
    (s.world.object next.object).schema.attribute? name = some a →
      t.ShowsAttribute next.object name a) hrun ⟨.refl hs, by simp⟩ ?_
  rintro done name x y hname ⟨hloads, hdone⟩ hstep
  obtain ⟨a, ha⟩ := hnames name hname
  rw [← hloads.schema_eq hs] at ha
  obtain ⟨hmore, hshows, hothers⟩ := loadAttribute_run hloads.hydrating hd ha hstep
  have hbound := (hloads.hydrating.waiting next List.mem_cons_self).1.bound
  refine ⟨hloads.trans hmore, ?_⟩
  intro other hother b hb
  by_cases heq : other = name
  · subst heq
    rw [← hloads.schema_eq hs] at hb
    cases ha.symm.trans hb
    exact hshows
  · rcases List.mem_append.mp hother with hother | hother
    · exact (hdone other hother b hb).grow hmore.grows hbound (hothers other heq)
    · exact absurd (List.mem_singleton.mp hother) heq

theorem mapM_loadRelation_run {rs : List Relation} {lists : List (List Pending)}
    (hs : Hydrating base D (next :: pending) s) (hd : Hydratable base D)
    (hrs : ∀ r ∈ rs, r ∈ (s.world.object next.object).schema.relations.values)
    (hrun : rs.mapM (loadRelation next) s = (.ok lists, t)) :
    Loads base D next pending s lists.flatten t ∧ (∀ r ∈ rs, t.ShowsRelation next.object r)
      ∧ ∀ other, (s.world.object next.object).schema.relation? other = none →
        (t.world.object next.object).shown other = (s.world.object next.object).shown other := by
  have hwellNamed := wellNamed_of_waiting hs hd
  suffices h : Loads base D next pending s lists.flatten t
      ∧ (∀ r ∈ rs, r ∈ rs ∧ t.ShowsRelation next.object r)
      ∧ ∀ other, (s.world.object next.object).schema.relation? other = none →
        (t.world.object next.object).shown other = (s.world.object next.object).shown other from
    ⟨h.1, fun r hr => (h.2.1 r hr).2, h.2.2⟩
  refine mapM_run (fun done lists t => Loads base D next pending s lists.flatten t
    ∧ (∀ r ∈ done, r ∈ rs ∧ t.ShowsRelation next.object r)
    ∧ ∀ other, (s.world.object next.object).schema.relation? other = none →
      (t.world.object next.object).shown other = (s.world.object next.object).shown other)
    hrun ⟨.refl hs, by simp, fun _ _ => rfl⟩ ?_
  rintro done lists r found x y hr ⟨hloads, hdone, hkept⟩ hstep
  have hmem := hrs r hr
  rw [← hloads.schema_eq hs] at hmem
  obtain ⟨hmore, hshows, hothers⟩ := loadRelation_run hloads.hydrating hd hmem hstep
  have hbound := (hloads.hydrating.waiting next List.mem_cons_self).1.bound
  refine ⟨by simpa using hloads.trans hmore, ?_, ?_⟩
  · intro r' hr'
    rcases List.mem_append.mp hr' with hr' | hr'
    · obtain ⟨hmem', hshown⟩ := hdone r' hr'
      refine ⟨hmem', ?_⟩
      by_cases hname : r'.name = r.name
      · -- A name belongs to one relation only.
        have hfirst := hwellNamed.relation?_of_mem (hrs r' hmem')
        rw [hname, hwellNamed.relation?_of_mem (hrs r hr)] at hfirst
        cases hfirst
        exact hshows
      · exact hshown.grow hmore.grows hbound (hothers r'.name hname)
    · obtain rfl := List.mem_singleton.mp hr'
      exact ⟨hr, hshows⟩
  · intro other hother
    have hne : other ≠ r.name := by
      rintro rfl
      simp [hwellNamed.relation?_of_mem (hrs r hr)] at hother
    exact (hothers other hne).trans (hkept other hother)

/-- Loading all fields makes a waiting object mirror its record. -/
theorem loadFields_run {found : List Pending} (hs : Hydrating base D (next :: pending) s)
    (hd : Hydratable base D) (hrun : loadFields next s = (.ok found, t)) :
    Hydrating base D (found ++ pending) t ∧ s.Grows t ∧ found.length + t.uncached ≤ s.uncached := by
  rw [loadFields, bind_of_ok (get_apply s)] at hrun
  obtain ⟨_, s₁, hattributes, hrun⟩ := bind_eq_ok.mp hrun
  obtain ⟨lists, s₂, hrelations, hpure⟩ := bind_eq_ok.mp hrun
  obtain ⟨heq, rfl⟩ := Prod.mk.inj hpure
  obtain rfl : lists.flatten = found := Except.ok.inj heq
  rw [schema_of_waiting hs hd] at hattributes hrelations
  obtain ⟨hfirst, hshowsAttribute⟩ := forM_loadAttribute_run hs hd
    (fun name hname => ClassSchema.exists_attribute?_of_mem hname) hattributes
  have hschema := hfirst.schema_eq hs
  obtain ⟨hsecond, hshowsRelation, hothers⟩ := mapM_loadRelation_run hfirst.hydrating hd
    (fun r hr => hschema.symm ▸ hr) hrelations
  have hall := hfirst.trans hsecond
  have hbound := (hfirst.hydrating.waiting next List.mem_cons_self).1.bound
  have hmirrors : s₂.Mirrors next.object := by
    constructor
    · intro name a ha hname
      rw [hall.schema_eq hs] at ha hname
      exact (hshowsAttribute name (ClassSchema.mem_attributes_of_attribute? ha) a ha).grow
        hsecond.grows hbound (hothers name (hschema.symm ▸ hname))
    · intro r hr
      rw [hall.schema_eq hs] at hr
      exact hshowsRelation r hr
  exact ⟨hall.hydrating.finish hmirrors, hall.grows, hall.uncached⟩

end Session

end RecordGraph
