import RecordGraph.Proofs.Session.Growth

/-!
Objects that mirror their records.  Hydration keeps every object that it made either waiting or in
agreement with the store; each object that it makes takes one of the records that had none, so that
the records without an object bound what may still have to wait.
-/

namespace RecordGraph

open RecordGraph.Computation

namespace Workspace

variable {s t : Workspace} {o : ObjectId} {name : String}

/-- An attribute shows what the store returns for it. -/
def ShowsAttribute (s : Workspace) (o : ObjectId) (name : String) (a : Attribute) : Prop :=
  ∃ v, s.world.store.read (s.world.object o).record name a.getter = .ok v
    ∧ (s.world.object o).shown name = (Field.value v).settled

/-- A relation shows the objects that stand for the records it leads to. -/
def ShowsRelation (s : Workspace) (o : ObjectId) (r : Relation) : Prop :=
  ∃ os, (s.world.object o).shown r.name = .ofTargets r.multivalue os
    ∧ os.map (fun p => (s.world.object p).record) = s.resolve (s.world.object o).record r
    ∧ ∀ p ∈ os, s.Stands p

/-- Every field of an object shows what the store has for it.  Where a relation has the name of an
attribute, the field is the relation's. -/
structure Mirrors (s : Workspace) (o : ObjectId) : Prop where
  attributes : ∀ name a, (s.world.object o).schema.attribute? name = some a →
    (s.world.object o).schema.relation? name = none → s.ShowsAttribute o name a
  relations : ∀ r ∈ (s.world.object o).schema.relations.values, s.ShowsRelation o r

theorem ShowsAttribute.grow {a : Attribute} (h : s.ShowsAttribute o name a) (hst : s.Grows t)
    (ho : o.index < s.world.objects.size)
    (hshown : (t.world.object o).shown name = (s.world.object o).shown name) :
    t.ShowsAttribute o name a := by
  obtain ⟨v, hread, hv⟩ := h
  exact ⟨v, by rw [hst.store, hst.recordOf ho, hread], hshown.trans hv⟩

theorem ShowsRelation.grow {r : Relation} (h : s.ShowsRelation o r) (hst : s.Grows t)
    (ho : o.index < s.world.objects.size)
    (hshown : (t.world.object o).shown r.name = (s.world.object o).shown r.name) :
    t.ShowsRelation o r := by
  obtain ⟨os, hos, hrecords, hstand⟩ := h
  refine ⟨os, hshown.trans hos, ?_, fun p hp => hst.stands (hstand p hp)⟩
  rw [hst.recordOf ho, hst.resolve, ← hrecords]
  exact List.map_congr_left fun p hp => hst.recordOf (hstand p hp).bound

theorem Mirrors.grow (h : s.Mirrors o) (hst : s.Grows t) (ho : o.index < s.world.objects.size)
    (hshown : ∀ name, (t.world.object o).shown name = (s.world.object o).shown name) :
    t.Mirrors o := by
  have hschema : (t.world.object o).schema = (s.world.object o).schema := by
    unfold Object.schema
    rw [hst.type ho]
  constructor
  · intro name a ha hname
    rw [hschema] at ha hname
    exact (h.attributes name a ha hname).grow hst ho (hshown name)
  · intro r hr
    rw [hschema] at hr
    exact (h.relations r hr).grow hst ho (hshown r.name)

/-! ### Records without an object -/

/-- How many stored records have no cached object. -/
def uncached (s : Workspace) : Nat :=
  s.world.store.allRecords.countP fun r => (s.cached? r.className r.id).isNone

theorem uncached_le (s : Workspace) : s.uncached ≤ s.world.store.recordCount := by
  rw [← Store.length_allRecords]
  exact List.countP_le_length

theorem countP_succ_le {α : Type} {p q : α → Bool} {xs : List α} {x : α} (hx : x ∈ xs)
    (hp : p x = true) (hq : q x = false) (hqp : ∀ y ∈ xs, q y = true → p y = true) :
    xs.countP q + 1 ≤ xs.countP p := by
  induction xs with
  | nil => simp at hx
  | cons y ys ih =>
    have htail : ∀ z ∈ ys, q z = true → p z = true := fun z hz => hqp z (List.mem_cons_of_mem y hz)
    have hmono := List.countP_mono_left htail
    rw [List.countP_cons, List.countP_cons]
    rcases List.mem_cons.mp hx with rfl | hx
    · rw [hp, hq]
      simp only [if_true, Bool.false_eq_true, if_false]
      omega
    · have hrest := ih hx htail
      have hhead := hqp y List.mem_cons_self
      cases hy : q y with
      | false =>
        simp only [Bool.false_eq_true, if_false]
        omega
      | true =>
        simp only [hhead hy, if_true]
        omega

/-- Making the object of a stored record that had none. -/
theorem uncached_make {type : ClassType} {r : RecordRef} (hr : r ∈ s.world.store.allRecords)
    (hnew : s.cached? r.className r.id = none) (htype : type.name = r.className) :
    (s.make type r.id).uncached + 1 ≤ s.uncached := by
  have hown : r.className ∈ type.names := htype ▸ ClassType.name_mem_names type
  apply countP_succ_le hr
  · rw [hnew]
    rfl
  · rw [cached?_make, if_pos ⟨hown, rfl⟩]
    rfl
  · intro y _ hy
    rw [cached?_make] at hy
    split at hy
    · simp at hy
    · exact hy

/-! ### The invariant -/

/-- Records for which a session can make objects: the session knows their classes as they are, their
relations lead only to each other, and no two of them stand in each other's way. -/
structure Hydratable (base : Workspace) (D : RecordRef → Prop) : Prop where
  current : base.registry.Current base.world.store.hierarchy
  stored : ∀ r, D r → r ∈ base.world.store.allRecords
  closed : ∀ r schema relation t, D r → base.registry.schemas.get? r.className = some schema →
    relation ∈ schema.relations.values → t ∈ base.resolve r relation → D t
  free : ∀ r t, D r → D t → r.id = t.id →
    base.world.store.hierarchy.isA r.className t.className = true → r = t

/-- What the cache gives for a class and id: an object that hydration made for a record of the domain
with that id, whose class is the given one or derives from it. -/
structure Indexed (base : Workspace) (D : RecordRef → Prop) (s : Workspace) (className id : String)
    (o : ObjectId) : Prop where
  stands : s.Stands o
  made : base.world.objects.size ≤ o.index
  id : (s.world.object o).id = id
  className : className ∈ (s.world.object o).type.names
  domain : D (s.world.object o).record

theorem Indexed.grow {base : Workspace} {D : RecordRef → Prop} {className id : String}
    (h : Indexed base D s className id o) (hst : s.Grows t) : Indexed base D t className id o := by
  obtain ⟨fields, heq⟩ := hst.header o h.stands.bound
  refine ⟨hst.stands h.stands, h.made, ?_, ?_, ?_⟩
  · rw [heq]
    exact h.id
  · rw [heq]
    exact h.className
  · rw [heq]
    exact h.domain

/-- The state of hydration: what is cached was made for a record of the domain, and an object that
does not wait mirrors its record. -/
structure Hydrating (base : Workspace) (D : RecordRef → Prop) (pending : List Session.Pending)
    (s : Workspace) : Prop where
  grown : base.Grows s
  kept : ∀ o : ObjectId, o.index < base.world.objects.size →
    s.world.object o = base.world.object o
  truthful : s.world.Truthful base.session.registry fun q => base.world.proxies.size ≤ q.index
  cached : ∀ className id o, s.cached? className id = some o → Indexed base D s className id o
  waiting : ∀ next ∈ pending, s.Stands next.object
    ∧ base.world.proxies.size ≤ next.proxy.index ∧ next.proxy.index < s.world.proxies.size
    ∧ s.world.recordOf next.proxy = (s.world.object next.object).record
  mirrored : ∀ o, s.Stands o → (∃ next ∈ pending, next.object = o) ∨ s.Mirrors o

variable {base : Workspace} {D : RecordRef → Prop} {pending pending' : List Session.Pending}

/-- A session without objects has hydrated nothing yet. -/
theorem hydrating_start
    (hempty : ∀ className id, base.cached? className id = none) : Hydrating base D [] base where
  grown := .refl base
  kept _ _ := rfl
  truthful :=
    ⟨fun q hq hlt => absurd hlt (Nat.not_lt.mpr hq), fun q hq hlt => absurd hlt (Nat.not_lt.mpr hq),
      fun q hq hlt => absurd hlt (Nat.not_lt.mpr hq)⟩
  cached className id o hcached := by simp [hempty] at hcached
  waiting _ hnext := by simp at hnext
  mirrored o ho := by simpa [hempty] using ho.cached

theorem Hydrating.of_mem_iff (hs : Hydrating base D pending s)
    (hmem : ∀ next, next ∈ pending ↔ next ∈ pending') : Hydrating base D pending' s where
  grown := hs.grown
  kept := hs.kept
  truthful := hs.truthful
  cached := hs.cached
  waiting next hnext := hs.waiting next ((hmem next).mpr hnext)
  mirrored o ho := by
    rcases hs.mirrored o ho with ⟨next, hnext, heq⟩ | hmirrors
    · exact Or.inl ⟨next, (hmem next).mp hnext, heq⟩
    · exact Or.inr hmirrors

theorem Hydrating.domain (hs : Hydrating base D pending s) (ho : s.Stands o) :
    base.world.objects.size ≤ o.index ∧ D (s.world.object o).record :=
  have h := hs.cached _ _ o ho.cached
  ⟨h.made, h.domain⟩

/-- An object that stopped waiting mirrors its record. -/
theorem Hydrating.finish {next : Session.Pending} (hs : Hydrating base D (next :: pending) s)
    (hmirrors : s.Mirrors next.object) : Hydrating base D pending s where
  grown := hs.grown
  kept := hs.kept
  truthful := hs.truthful
  cached := hs.cached
  waiting other hother := hs.waiting other (List.mem_cons_of_mem next hother)
  mirrored o ho := by
    rcases hs.mirrored o ho with ⟨other, hother, rfl⟩ | hmirrored
    · rcases List.mem_cons.mp hother with rfl | hother
      · exact Or.inr hmirrors
      · exact Or.inl ⟨other, hother, rfl⟩
    · exact Or.inr hmirrored

/-- Reading through proxies keeps the invariant. -/
theorem Hydrating.of_extends {w : World} (hs : Hydrating base D pending s)
    (h : s.world.Extends w)
    (htruthful : w.Truthful base.session.registry fun q => base.world.proxies.size ≤ q.index) :
    Hydrating base D pending { s with world := w } := by
  have hgrows := grows_of_extends h
  have hobject : ∀ o, w.object o = s.world.object o := by
    intro o
    unfold World.object
    rw [h.objects]
  refine ⟨hs.grown.trans hgrows, ?_, htruthful, ?_, ?_, ?_⟩
  · intro o ho
    exact (hobject o).trans (hs.kept o ho)
  · exact fun className id o hcached => (hs.cached className id o hcached).grow hgrows
  · intro next hnext
    obtain ⟨hstands, hviewed, hlt, hrecord⟩ := hs.waiting next hnext
    refine ⟨hgrows.stands hstands, hviewed, Nat.lt_of_lt_of_le hlt h.size_le, ?_⟩
    rw [hobject]
    exact (h.record _ hlt).trans hrecord
  · intro o ho
    have hcached := ho.cached
    rw [hobject] at hcached
    have hold := (hs.cached _ _ o hcached).stands
    rcases hs.mirrored o hold with hwaits | hmirrors
    · exact Or.inl hwaits
    · exact Or.inr (hmirrors.grow hgrows hold.bound fun name => by rw [hobject])

/-- Loading a field of an object that waits keeps the invariant. -/
theorem Hydrating.load {next : Session.Pending} (hs : Hydrating base D (next :: pending) s)
    (name : String) (f : Field) :
    Hydrating base D (next :: pending) (s.load next.object name f) := by
  have hgrows := grows_load s next.object name f
  have hobject : ∀ o, o ≠ next.object →
      (s.load next.object name f).world.object o = s.world.object o := by
    intro o ho
    rw [object_load, if_neg fun h => ho h.1]
  have hstands : ∀ o, (s.load next.object name f).Stands o → s.Stands o := by
    intro o ho
    exact (hs.cached _ _ o ho.cached).stands
  obtain ⟨hself, _⟩ := hs.waiting next List.mem_cons_self
  refine ⟨hs.grown.trans hgrows, ?_, ?_, ?_, ?_, ?_⟩
  · intro o ho
    rw [hobject o, hs.kept o ho]
    rintro rfl
    have hnew := (hs.domain hself).1
    omega
  · exact hs.truthful.of_eq rfl rfl rfl
  · exact fun className id o hcached => (hs.cached className id o hcached).grow hgrows
  · intro other hother
    obtain ⟨hold, hviewed, hlt, hrecord⟩ := hs.waiting other hother
    exact ⟨hgrows.stands hold, hviewed, hlt, by rw [hgrows.recordOf hold.bound]; exact hrecord⟩
  · intro o ho
    by_cases heq : o = next.object
    · exact Or.inl ⟨next, List.mem_cons_self, heq.symm⟩
    · rcases hs.mirrored o (hstands o ho) with hwaits | hmirrors
      · exact Or.inl hwaits
      · exact Or.inr (hmirrors.grow hgrows (hstands o ho).bound fun _ => by rw [hobject o heq])

/-- Whatever object a new one would hide stands for the same record, which has none yet. -/
theorem Hydrating.not_hidden {r : RecordRef} {type : ClassType} (hs : Hydrating base D pending s)
    (hd : Hydratable base D) (hD : D r) (hnone : s.cached? r.className r.id = none)
    (hname : type.name = r.className) (hshows : type.Shows base.world.store.hierarchy)
    {o : ObjectId} (ho : s.Stands o) (hid : (s.world.object o).id = r.id) :
    (s.world.object o).className ∉ type.names := by
  intro hmem
  have hisA := hshows.isA_of_mem_names hmem
  rw [hname] at hisA
  rw [hd.free _ _ hD (hs.domain ho).2 hid.symm hisA] at hnone
  simp [Object.record, ho.cached] at hnone

/-- Making the object of a record of the domain that has none keeps the invariant; the object
waits. -/
theorem Hydrating.make {p : ProxyId} {type : ClassType} (hs : Hydrating base D pending s)
    (hd : Hydratable base D) (hviewed : base.world.proxies.size ≤ p.index)
    (hlt : p.index < s.world.proxies.size) (hD : D (s.world.recordOf p))
    (hnone : s.cached? (s.world.recordOf p).className (s.world.recordOf p).id = none)
    (htype : s.registry.types.get? (s.world.recordOf p).className = some type) :
    let made := s.make type (s.world.recordOf p).id
    s.Grows made ∧ Hydrating base D (⟨p, ⟨s.world.objects.size⟩⟩ :: pending) made
      ∧ made.Stands ⟨s.world.objects.size⟩
      ∧ (made.world.object ⟨s.world.objects.size⟩).record = s.world.recordOf p
      ∧ made.uncached + 1 ≤ s.uncached := by
  intro made
  obtain ⟨hname, -, hshows⟩ := hd.current.types _ _ (hs.grown.registry ▸ htype)
  have hmade : made.world.object ⟨s.world.objects.size⟩
      = { type, id := (s.world.recordOf p).id } := object_make_new
  have hrecord : (made.world.object ⟨s.world.objects.size⟩).record = s.world.recordOf p := by
    rw [hmade]
    unfold Object.record Object.className
    rw [hname]
  have hgrows : s.Grows made := grows_make fun o ho => hs.not_hidden hd hD hnone hname hshows ho
  have hobject : ∀ o : ObjectId, o.index < s.world.objects.size →
      made.world.object o = s.world.object o := fun o ho => object_make_of_lt ho
  have hstands : made.Stands ⟨s.world.objects.size⟩ := stands_make (hname ▸ htype)
  refine ⟨hgrows, ⟨hs.grown.trans hgrows, ?_, ?_, ?_, ?_, ?_⟩, hstands, hrecord, ?_⟩
  · intro o ho
    rw [hobject o (Nat.lt_of_lt_of_le ho hs.grown.objects), hs.kept o ho]
  · exact hs.truthful.of_eq rfl rfl rfl
  · intro className id o hcached
    rcases cached?_make_eq_some hcached with ⟨rfl, hmem, rfl⟩ | hold
    · exact ⟨hstands, hs.grown.objects, by rw [hmade], by rw [hmade]; exact hmem,
        by rw [hrecord]; exact hD⟩
    · exact (hs.cached className id o hold).grow hgrows
  · intro next hnext
    rcases List.mem_cons.mp hnext with rfl | hnext
    · exact ⟨hstands, hviewed, hlt, hrecord.symm⟩
    · obtain ⟨ho, hproxy, hbound, heq⟩ := hs.waiting next hnext
      exact ⟨hgrows.stands ho, hproxy, hbound, by rw [hobject _ ho.bound]; exact heq⟩
  · intro o ho
    rcases cached?_make_eq_some ho.cached with ⟨rfl, -⟩ | hold
    · exact Or.inl ⟨_, List.mem_cons_self, rfl⟩
    · have hstood := (hs.cached _ _ o hold).stands
      rcases hs.mirrored o hstood with ⟨next, hnext, heq⟩ | hmirrors
      · exact Or.inl ⟨next, List.mem_cons_of_mem _ hnext, heq⟩
      · exact Or.inr (hmirrors.grow hgrows hstood.bound fun _ => by rw [hobject o hstood.bound])
  · have hstored := hd.stored _ hD
    rw [← hs.grown.store] at hstored
    exact uncached_make hstored hnone hname

end Workspace

end RecordGraph
