import Mathlib.Data.List.Nodup
import RecordGraph.Proofs.Object.Listing
import RecordGraph.Proofs.Session.Feasibility

/-!
Getting everything at once.  The classes are those that the registry has types for, which the store
need not show any more, and objects are told apart by their full names.  Where every such class is
visible, what is given represents every cached object and every visible record.
-/

namespace RecordGraph

open RecordGraph.Computation Workspace

namespace Session

variable {s t u : Workspace} {os : List ObjectId} {p : ProxyId} {o : ObjectId} {className : String}

/-! ### Getting all objects of a class -/

/-- An object was cached for a record at some time in a run. -/
def CachedFor (s t : Workspace) (r : RecordRef) (o : ObjectId) : Prop :=
  ∃ m : Workspace, s.Populates m ∧ m.Populates t ∧ m.cached? r.className r.id = some o

theorem CachedFor.later {r : RecordRef} (h : CachedFor s t r o) (htu : t.Populates u) :
    CachedFor s u r o := by
  obtain ⟨m, hsm, hmt, hcached⟩ := h
  exact ⟨m, hsm, hmt.trans htu, hcached⟩

theorem CachedFor.bound {r : RecordRef} (h : CachedFor s t r o) (hs : s.CachesObjects) :
    o.index < t.world.objects.size := by
  obtain ⟨m, hsm, hmt, hcached⟩ := h
  exact Nat.lt_of_lt_of_le (hsm.cachesObjects hs _ _ o hcached) hmt.objects

theorem nameOf_populates (h : s.Populates t) (ho : o.index < s.world.objects.size) :
    t.world.nameOf o = s.world.nameOf o := by
  obtain ⟨htype, hid, -⟩ := h.header ho
  unfold World.nameOf Object.fullName Object.record Object.className
  rw [htype, hid]

/-- Getting all objects of a class gives one that is cached for each record. -/
theorem getAll_collects (hs : s.Collecting t) (hnamed : s.registry.NamesTypes)
    (hrun : getAll className t = (.ok os, u)) :
    s.Continues t u ∧ className ∈ s.world.store.classes
      ∧ (∀ o ∈ os, ∃ r, CachedFor s u r o)
      ∧ ∀ rs, s.world.store.records className = .ok rs → ∀ r ∈ rs, ∃ o ∈ os, CachedFor s u r o := by
  obtain ⟨ps, v, hlist, hobjects⟩ := bind_eq_ok.mp hrun
  obtain ⟨rs, hrecords, hlisted, hviews, hmap⟩ := records_collects hs hlist
  rw [hs.store] at hrecords
  obtain ⟨hdone, hsound, hcomplete⟩ : s.Continues v u ∧ (∀ o ∈ os, ∃ r, CachedFor s u r o)
      ∧ ∀ p ∈ ps, ∃ o ∈ os, CachedFor s u (v.world.recordOf p) o := by
    refine mapM_run (fun done os u => s.Continues v u ∧ (∀ o ∈ os, ∃ r, CachedFor s u r o)
      ∧ ∀ p ∈ done, ∃ o ∈ os, CachedFor s u (v.world.recordOf p) o) hobjects
      ⟨.refl hlisted.collecting, by simp, by simp⟩ ?_
    rintro done os p o a b hp ⟨hdone, hsound, hcomplete⟩ hstep
    obtain ⟨hnext, m, hfirst, hrest, hcached⟩ :=
      hydrate_collects hdone.collecting hnamed ((hviews p hp).gain hdone.gains) hstep
    rw [hdone.gains.record p (hviews p hp).bound] at hcached
    have hfor : CachedFor s b (v.world.recordOf p) o :=
      ⟨m, hfirst.collecting.populates, hrest.populates, hcached⟩
    refine ⟨hdone.trans hnext, fun x hx => ?_, fun q hq => ?_⟩
    · rcases List.mem_append.mp hx with hx | hx
      · obtain ⟨r, hr⟩ := hsound x hx
        exact ⟨r, hr.later hnext.gains.populates⟩
      · exact List.mem_singleton.mp hx ▸ ⟨_, hfor⟩
    · rcases List.mem_append.mp hq with hq | hq
      · obtain ⟨x, hx, hfor'⟩ := hcomplete q hq
        exact ⟨x, List.mem_append_left _ hx, hfor'.later hnext.gains.populates⟩
      · rw [List.mem_singleton.mp hq]
        exact ⟨o, by simp, hfor⟩
  refine ⟨hlisted.trans hdone, Store.records_ok_iff.mp ⟨rs, hrecords⟩, hsound, fun rs' hrs' r hr => ?_⟩
  obtain rfl := Except.ok.inj (hrecords.symm.trans hrs')
  rw [← hmap] at hr
  obtain ⟨p, hp, rfl⟩ := List.mem_map.mp hr
  exact hcomplete p hp

/-- What was found when some classes are done: objects under their names, one for every object that had
been cached and one for every record of the classes. -/
structure Found (s : Workspace) (done : List String) (found : OrderedMap String ObjectId)
    (t : Workspace) : Prop where
  collecting : s.Collecting t
  named : ∀ name o, found.get? name = some o →
    o.index < t.world.objects.size ∧ t.world.nameOf o = name
  cached : ∀ className id o, s.cached? className id = some o →
    found.contains (s.world.nameOf o) = true
  classes : ∀ c ∈ done, c ∈ s.world.store.classes
  records : ∀ c ∈ done, ∀ rs, s.world.store.records c = .ok rs → ∀ r ∈ rs,
    ∃ o, CachedFor s t r o ∧ found.contains (t.world.nameOf o) = true

theorem Found.next {done : List String} {found next : OrderedMap String ObjectId}
    (h : Found s done found t) (hs : s.CachesObjects) (hnamed : s.registry.NamesTypes)
    (hrun : materializeClass found className t = (.ok next, u)) :
    Found s (done ++ [className]) next u := by
  obtain ⟨os, hget, rfl⟩ := materializeClass_eq_ok.mp hrun
  obtain ⟨hcontinues, hclass, hsound, hcomplete⟩ := getAll_collects h.collecting hnamed hget
  have hpopulates := hcontinues.gains.populates
  have hkept : ∀ name, found.contains name = true →
      (os.foldl (fun m o => m.insertNew (u.world.nameOf o) o) found).contains name = true :=
    fun name hname =>
      (OrderedMap.contains_foldl_insertNew (f := fun o : ObjectId => o)).mpr (Or.inl hname)
  refine ⟨hcontinues.collecting, fun name o ho => ?_, fun c i o ho => hkept _ (h.cached c i o ho),
    fun c hc => ?_, fun c hc rs hrs r hr => ?_⟩
  · rcases OrderedMap.of_get?_foldl_insertNew (f := fun o : ObjectId => o) ho with
      hold | ⟨x, hx, hname, rfl⟩
    · obtain ⟨hbound, hname⟩ := h.named name o hold
      exact ⟨Nat.lt_of_lt_of_le hbound hpopulates.objects,
        (nameOf_populates hpopulates hbound).trans hname⟩
    · obtain ⟨r, hfor⟩ := hsound x hx
      exact ⟨hfor.bound hs, hname⟩
  · rcases List.mem_append.mp hc with hc | hc
    · exact h.classes c hc
    · exact List.mem_singleton.mp hc ▸ hclass
  · rcases List.mem_append.mp hc with hc | hc
    · obtain ⟨o, hfor, hname⟩ := h.records c hc rs hrs r hr
      refine ⟨o, hfor.later hpopulates, hkept _ ?_⟩
      rwa [nameOf_populates hpopulates (hfor.bound hs)]
    · obtain ⟨o, ho, hfor⟩ := hcomplete rs (List.mem_singleton.mp hc ▸ hrs) r hr
      exact ⟨o, hfor, (OrderedMap.contains_foldl_insertNew (f := fun o : ObjectId => o)).mpr
        (Or.inr ⟨o, ho, rfl⟩)⟩

theorem Found.exists_named {done : List String} {found : OrderedMap String ObjectId} {name : String}
    (h : Found s done found t) (hname : found.contains name = true) :
    ∃ x ∈ found.values, t.world.nameOf x = name := by
  obtain ⟨x, hx⟩ := OrderedMap.contains_iff_exists_get?.mp hname
  exact ⟨x, OrderedMap.mem_values_of_get? hx, (h.named name x hx).2⟩

theorem Found.distinct {done : List String} {found : OrderedMap String ObjectId}
    (h : Found s done found t) : (found.values.map t.world.nameOf).Nodup := by
  have hnames : found.values.map t.world.nameOf = found.keys := by
    rw [OrderedMap.values, OrderedMap.keys, List.map_map]
    exact List.map_congr_left fun e he =>
      (h.named e.1 e.2 (OrderedMap.get?_eq_some_iff.mpr he)).2
  rw [hnames]
  exact found.nodup_keys

/-! ### What is given -/

/-- An object is cached before or after something. -/
def Held (s t : Workspace) (o : ObjectId) : Prop :=
  ∃ className id, s.cached? className id = some o ∨ t.cached? className id = some o

namespace Materialized

end Materialized

section Done

variable {found : OrderedMap String ObjectId} (h : Found s s.registry.types.keys found t)

include h

/-- When all classes with types are done, the name of every cached object was found: a new object
stands for a listed record of a class with a type, and the record has no other object by then. -/
theorem Found.held (hs : s.CachesObjects) (hrooted : s.registry.Rooted) (ho : Held s t o) :
    ∃ x ∈ found.values, t.world.nameOf x = t.world.nameOf o := by
  have hpopulates := h.collecting.populates
  have hold : ∀ className id o, s.cached? className id = some o →
      ∃ x ∈ found.values, t.world.nameOf x = t.world.nameOf o := by
    intro className id o ho
    rw [nameOf_populates hpopulates (hs className id o ho)]
    exact h.exists_named (h.cached className id o ho)
  obtain ⟨className, id, ho | ho⟩ := ho
  · exact hold className id o ho
  · rcases hpopulates.cached?_eq_some ho with ho' | hnew
    · exact hold className id o ho'
    · have hbound := hpopulates.cachesObjects hs className id o ho
      obtain ⟨htype, -, -⟩ := hpopulates.made hrooted.named hnew hbound
      have hvisible := h.collecting.visible o hnew hbound
      rw [h.collecting.store] at hvisible
      have hkey : (t.world.object o).className ∈ s.registry.types.keys :=
        OrderedMap.mem_keys_iff.mpr ⟨_, htype⟩
      have hlisted : s.world.store.Listed (t.world.object o).record := ⟨hvisible, h.classes _ hkey⟩
      obtain ⟨rs, hrs⟩ := Store.records_ok_iff.mpr hlisted.className
      obtain ⟨x, ⟨m, hsm, hmt, hx⟩, hname⟩ := h.records _ hkey rs hrs _ (hlisted.mem_records hrs)
      obtain rfl : x = o := hsm.eq_of_cached hmt hs hrooted ho hnew hx
      exact h.exists_named hname

/-- When all classes with types are done, every listed record has an object. -/
theorem Found.listed (hrooted : s.registry.Rooted) (hall : AllHydratable s) {r : RecordRef}
    (hr : s.world.store.Listed r) : t.covers r := by
  by_cases hcovered : s.covers r
  · exact h.collecting.populates.cached?_isSome hcovered
  · obtain ⟨type, -, -, htype, -, -⟩ :=
      feasible_of_canHydrate hrooted.named hr.visible hcovered (hall r hr)
    obtain ⟨rs, hrs⟩ := Store.records_ok_iff.mpr hr.className
    obtain ⟨o, ⟨m, -, hmt, ho⟩, -⟩ := h.records _
      (OrderedMap.mem_keys_iff.mpr ⟨type, htype⟩) rs hrs r (hr.mem_records hrs)
    exact hmt.cached?_isSome (Option.isSome_iff_exists.mpr ⟨o, ho⟩)

end Done

end Session

end RecordGraph
