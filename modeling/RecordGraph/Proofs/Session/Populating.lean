import RecordGraph.Proofs.Registry.Rooted
import RecordGraph.Proofs.Session.Maintaining

/-!
How a cache fills while records are hydrated, whether that succeeds or fails.  An object is made for a
record only where nothing is cached for it; what is cached under a class and id may give way to an
object of a derived class, but something stays cached there.
-/

namespace RecordGraph

open RecordGraph.Computation

namespace Workspace

/-- One workspace comes from another by making the objects of records for which nothing is cached, and
by what maintains the objects and the session. -/
inductive Populates (s : Workspace) : Workspace → Prop
  | refl : Populates s s
  | maintain {t u : Workspace} (h : Populates s t) (step : t.Maintains u) : Populates s u
  | make {t : Workspace} {r : RecordRef} {type : ClassType} (h : Populates s t)
      (known : t.registry.types.get? r.className = some type)
      (free : t.cached? r.className r.id = none) : Populates s (t.make type r.id)

variable {s t u : Workspace} {o : ObjectId} {className id : String}

/-- Every cached object exists. -/
def CachesObjects (s : Workspace) : Prop :=
  ∀ className id o, s.cached? className id = some o → o.index < s.world.objects.size

namespace Populates

theorem trans (hst : s.Populates t) (htu : t.Populates u) : s.Populates u := by
  induction htu with
  | refl => exact hst
  | maintain _ step ih => exact ih.maintain step
  | make _ known free ih => exact ih.make known free

theorem registry (h : s.Populates t) : t.registry = s.registry := by
  induction h with
  | refl => rfl
  | maintain _ step ih => exact step.registry.trans ih
  | make _ _ _ ih => exact ih

theorem registries (h : s.Populates t) : t.world.registries = s.world.registries := by
  induction h with
  | refl => rfl
  | maintain _ step ih => exact step.world.registries.trans ih
  | make _ _ _ ih => exact ih

theorem registryId (h : s.Populates t) : t.session.registry = s.session.registry := by
  induction h with
  | refl => rfl
  | maintain _ step ih => exact (congrArg Session.registry step.session).trans ih
  | make _ _ _ ih => exact ih

theorem objects (h : s.Populates t) : s.world.objects.size ≤ t.world.objects.size := by
  induction h with
  | refl => exact Nat.le_refl _
  | maintain _ step ih => exact Nat.le_trans ih (Nat.le_of_eq step.world.objects.symm)
  | make _ _ _ ih => exact Nat.le_trans ih (by rw [size_make]; exact Nat.le_succ _)

/-- Objects keep their types and ids. -/
theorem header (h : s.Populates t) (ho : o.index < s.world.objects.size) :
    (t.world.object o).type = (s.world.object o).type
      ∧ (t.world.object o).id = (s.world.object o).id
      ∧ (t.world.object o).oldId = (s.world.object o).oldId := by
  induction h with
  | refl => exact ⟨rfl, rfl, rfl⟩
  | maintain _ step ih =>
    exact ⟨(step.world.type o).trans ih.1, (step.world.id o).trans ih.2.1,
      (step.world.oldId o).trans ih.2.2⟩
  | make hst _ _ ih => rwa [object_make_of_lt (Nat.lt_of_lt_of_le ho hst.objects)]

/-- A new object waits for no rename. -/
theorem oldId_of_new (h : s.Populates t) (hnew : s.world.objects.size ≤ o.index) :
    (t.world.object o).oldId = none := by
  induction h with
  | refl =>
    rw [World.object_of_missing (Nat.not_lt.mpr hnew)]
    rfl
  | maintain _ step ih => exact (step.world.oldId o).trans ih
  | @make t r type _ _ _ ih =>
    rcases Nat.lt_trichotomy o.index t.world.objects.size with hlt | heq | hgt
    · rwa [object_make_of_lt hlt]
    · obtain ⟨index⟩ := o
      obtain rfl : index = t.world.objects.size := heq
      rw [object_make_new]
    · rw [World.object_of_missing (by rw [size_make]; omega)]
      rfl

/-- What is cached was cached before, or is new. -/
theorem cached?_eq_some (h : s.Populates t) (ho : t.cached? className id = some o) :
    s.cached? className id = some o ∨ s.world.objects.size ≤ o.index := by
  induction h with
  | refl => exact Or.inl ho
  | maintain _ step ih => exact ih (step.cached? ▸ ho)
  | make hst _ _ ih =>
    rcases cached?_make_eq_some ho with ⟨rfl, -, -⟩ | hold
    · exact Or.inr hst.objects
    · exact ih hold

/-- Where something was cached something is cached. -/
theorem cached?_isSome (h : s.Populates t) (ho : (s.cached? className id).isSome = true) :
    (t.cached? className id).isSome = true := by
  induction h with
  | refl => exact ho
  | maintain _ step ih => rwa [step.cached?]
  | make _ _ _ ih =>
    rw [cached?_make]
    split
    · rfl
    · exact ih

theorem cachesObjects (h : s.Populates t) (hs : s.CachesObjects) : t.CachesObjects := by
  induction h with
  | refl => exact hs
  | maintain _ step ih =>
    intro className id o ho
    rw [step.cached?] at ho
    exact step.world.objects ▸ ih className id o ho
  | make _ _ _ ih =>
    intro className id o ho
    rw [size_make]
    rcases cached?_make_eq_some ho with ⟨rfl, -, -⟩ | hold
    · exact Nat.lt_succ_self _
    · exact Nat.lt_succ_of_lt (ih className id o hold)

/-- What was made is of the registered type of its class, was made where nothing had been cached, and
is cached under the names of its type unless something newer is. -/
theorem made (h : s.Populates t) (hnamed : s.registry.NamesTypes)
    (hnew : s.world.objects.size ≤ o.index) (ho : o.index < t.world.objects.size) :
    s.registry.types.get? (t.world.object o).className = some (t.world.object o).type
      ∧ s.cached? (t.world.object o).className (t.world.object o).id = none
      ∧ ∀ n ∈ (t.world.object o).type.names, ∃ x, t.cached? n (t.world.object o).id = some x
        ∧ o.index ≤ x.index := by
  induction h with
  | refl => exact absurd ho (Nat.not_lt.mpr hnew)
  | maintain _ step ih =>
    rw [Object.className, step.world.type, step.world.id, step.cached?]
    exact ih (step.world.objects ▸ ho)
  | @make t r type hst known free ih =>
    rcases Nat.lt_succ_iff_lt_or_eq.mp (size_make ▸ ho) with hlt | heq
    · rw [object_make_of_lt hlt]
      obtain ⟨htype, hnone, hnames⟩ := ih hlt
      refine ⟨htype, hnone, fun n hn => ?_⟩
      rw [cached?_make]
      split
      · exact ⟨_, rfl, Nat.le_of_lt hlt⟩
      · exact hnames n hn
    · obtain ⟨index⟩ := o
      obtain rfl : index = t.world.objects.size := heq
      rw [hst.registry] at known
      have hname := hnamed _ _ known
      rw [object_make_new, Object.className]
      refine ⟨hname.symm ▸ known, ?_, fun n hn => ⟨_, ?_, Nat.le_refl _⟩⟩
      · rw [hname]
        cases hold : s.cached? r.className r.id with
        | none => rfl
        | some x =>
          have hsome := hst.cached?_isSome (Option.isSome_iff_exists.mpr ⟨x, hold⟩)
          simp [free] at hsome
      · rw [cached?_make, if_pos ⟨hn, rfl⟩]

/-- What came to be cached is cached under names of its type and under its id. -/
theorem filed (h : s.Populates t) (hs : s.CachesObjects) (ho : t.cached? className id = some o)
    (hnew : s.world.objects.size ≤ o.index) :
    className ∈ (t.world.object o).type.names ∧ (t.world.object o).id = id := by
  induction h with
  | refl => exact absurd (hs className id o ho) (Nat.not_lt.mpr hnew)
  | maintain _ step ih =>
    rw [step.world.type, step.world.id]
    exact ih (step.cached? ▸ ho)
  | @make t r type hst _ _ ih =>
    rcases cached?_make_eq_some ho with ⟨rfl, hmem, rfl⟩ | hold
    · rw [object_make_new]
      exact ⟨hmem, rfl⟩
    · rw [object_make_of_lt (hst.cachesObjects hs className id o hold)]
      exact ih hold

/-- Whatever was cached for the class and id of an object once the object had to be made is the object
itself, if the object is still cached in the end: nothing is made where something is cached, and what
is made later for a derived class takes over all names. -/
theorem eq_of_cached {m : Workspace} {x y : ObjectId} (hsm : s.Populates m) (hmt : m.Populates t)
    (hs : s.CachesObjects) (hrooted : s.registry.Rooted) (hx : t.cached? className id = some x)
    (hnew : s.world.objects.size ≤ x.index)
    (hy : m.cached? (t.world.object x).className (t.world.object x).id = some y) : y = x := by
  have hst := hsm.trans hmt
  have hm := hsm.cachesObjects hs
  have hbound := hst.cachesObjects hs className id x hx
  obtain ⟨hmem, hid⟩ := hst.filed hs hx hnew
  obtain ⟨htype, -, -⟩ := hst.made hrooted.named hnew hbound
  rcases Nat.lt_or_ge x.index m.world.objects.size with hlt | hge
  · obtain ⟨hsame, hsameId, -⟩ := hmt.header hlt
    obtain ⟨-, -, hnames⟩ := hsm.made hrooted.named hnew hlt
    obtain ⟨z, hz, hle⟩ := hnames _ (ClassType.name_mem_names _)
    rw [← hsame, ← hsameId] at hz
    obtain rfl : y = z := Option.some.inj (hy.symm.trans hz)
    rcases Nat.lt_or_eq_of_le hle with hlater | heq
    · -- a newer object that is cached there has the names of the older one
      have hyNew := Nat.le_trans hnew hle
      have hyBound := hm _ _ y hy
      obtain ⟨hyMem, hyId⟩ := hsm.filed hs hy hyNew
      obtain ⟨hyType, -, -⟩ := hsm.made hrooted.named hyNew hyBound
      obtain ⟨hySame, hySameId, -⟩ := hmt.header hyBound
      obtain ⟨-, -, hyNames⟩ := hst.made hrooted.named hyNew
        (Nat.lt_of_lt_of_le hyBound hmt.objects)
      have hall := hrooted.names_subset hyType htype hyMem hmem
      obtain ⟨z, hz, hzle⟩ := hyNames className (hySame ▸ hall)
      rw [hySameId, hyId, hid] at hz
      obtain rfl : x = z := Option.some.inj (hx.symm.trans hz)
      exact absurd hzle (Nat.not_le.mpr hlater)
    · obtain ⟨i⟩ := x
      obtain ⟨j⟩ := y
      exact congrArg ObjectId.mk heq.symm
  · obtain ⟨-, hnone, -⟩ := hmt.made (hsm.registry ▸ hrooted.named) hge hbound
    cases hnone.symm.trans hy

end Populates

end Workspace

namespace Session

open Workspace

variable {α : Type} {s : Workspace} {p : ProxyId}

theorem preserves_populates {m : SessionM α} (h : ∀ t : Workspace, Preserves t.Maintains m) :
    Preserves s.Populates m :=
  fun t ht => ht.maintain (h t t (.refl t))

theorem instantiate_of_none
    (htype : s.registry.types.get? (s.world.recordOf p).className = none) :
    ∃ e, instantiate p s = (.error e, s) := by
  rw [instantiate, bind_of_ok (get_apply s), bind_apply, ofExcept_apply]
  cases hfound : (s.world.registry s.session.registry).type (s.world.recordOf p).className with
  | error e => exact ⟨e, rfl⟩
  | ok type => cases htype.symm.trans (Registry.type_eq_ok.mp hfound)

theorem preserves_objectOf (p : ProxyId) : Preserves s.Populates (objectOf p) := by
  intro t ht
  rw [objectOf, bind_of_ok (get_apply t)]
  cases hcached : t.cached? (t.world.recordOf p).className (t.world.recordOf p).id with
  | some o => exact ht
  | none =>
    cases htype : t.registry.types.get? (t.world.recordOf p).className with
    | none =>
      obtain ⟨e, hfail⟩ := instantiate_of_none htype
      dsimp only
      rwa [bind_of_error hfail]
    | some type =>
      dsimp only
      rw [bind_of_ok (instantiate_of_type htype)]
      exact ht.make htype hcached

theorem preserves_loadAttribute (next : Pending) (name : String) :
    Preserves s.Populates (loadAttribute next name) :=
  preserves_populates fun _ => (preserves_act (next.proxy.reads_getAttribute name).preserves).bind
    fun _ => preserves_loadField _ _ _

theorem preserves_loadRelation (next : Pending) (r : Relation) :
    Preserves s.Populates (loadRelation next r) :=
  (preserves_populates fun _ => preserves_act ((World.Maintains.keptByProxies _).getRelation next.proxy r.name)).bind
    fun _ => (Preserves.mapM fun p _ => (preserves_objectOf p).bind fun _ => preserves_pure _).bind
      fun _ => (preserves_populates fun _ => preserves_loadField _ _ _).bind
        fun _ => preserves_pure _

theorem preserves_loadFields (next : Pending) : Preserves s.Populates (loadFields next) :=
  reads_get.preserves.bind fun _ =>
    (Preserves.forM fun _ _ => preserves_loadAttribute next _).bind fun _ =>
      (Preserves.mapM fun _ _ => preserves_loadRelation next _).bind fun _ => preserves_pure _

theorem preserves_loadPending (steps : Nat) (pending : List Pending) :
    Preserves s.Populates (loadPending steps pending) := by
  induction steps generalizing pending with
  | zero => exact preserves_pure _
  | succ steps ih =>
    cases pending with
    | nil => exact preserves_pure _
    | cons next pending => exact (preserves_loadFields next).bind fun _ => ih _

theorem preserves_hydrate (p : ProxyId) : Preserves s.Populates (hydrate p) := by
  refine (preserves_objectOf p).bind fun ⟨o, new⟩ => ?_
  cases new with
  | false => exact preserves_pure _
  | true =>
    exact reads_get.preserves.bind fun _ => (preserves_loadPending _ _).bind fun _ => preserves_pure _

theorem preserves_getObject (className id : String) :
    Preserves s.Populates (getObject className id) := by
  refine reads_get.preserves.bind fun t => ?_
  split
  · exact preserves_pure _
  · exact (preserves_populates fun _ => preserves_record _ _).bind fun p => preserves_hydrate p

theorem preserves_getAll (className : String) : Preserves s.Populates (getAll className) :=
  (preserves_populates fun _ => preserves_records _).bind fun _ =>
    .mapM fun p _ => preserves_hydrate p

theorem preserves_materializeAll : Preserves s.Populates materializeAll :=
  reads_get.preserves.bind fun _ =>
    (Preserves.foldlM (fun _ _ _ => (preserves_getAll _).bind fun _ =>
      reads_get.preserves.bind fun _ => preserves_pure _) _).bind fun _ => preserves_pure _

end Session

end RecordGraph
