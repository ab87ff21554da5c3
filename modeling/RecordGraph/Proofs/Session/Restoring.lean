import RecordGraph.Proofs.Session.Keeping
import RecordGraph.Proofs.Session.Opening
import RecordGraph.Proofs.Session.Progress

/-!
Hydrating what was kept of new objects.  The records of the objects lead only to each other, so that
they can be hydrated; every object gets an image that reads as the object does, with the images of its
targets in their places.
-/

namespace RecordGraph

open RecordGraph.Computation

/-- A relation that is stored as records leads to these records. -/
theorem Store.resolve_ofRecords {s : Store} {known : String → Bool} {owner : RecordRef} {r : Relation}
    {rs : List RecordRef} (hread : s.read owner r.name r.accessor = .ok (.ofRecords r.multivalue rs))
    (hknown : ∀ t ∈ rs, known t.className = true)
    (hlength : r.multivalue = false → rs.length ≤ 1) : s.resolve known owner r = some rs := by
  unfold resolve
  rw [hread]
  cases hmulti : r.multivalue with
  | true =>
    change (rs.map Value.record).mapM (Value.reference? known) = some rs
    clear hread hlength
    induction rs with
    | nil => rfl
    | cons t rs ih =>
      have hfirst : (Value.record t).reference? known = some t :=
        Value.reference?_eq_some.mpr ⟨rfl, hknown t List.mem_cons_self⟩
      rw [List.map_cons, List.mapM_cons, hfirst, ih fun x hx => hknown x (List.mem_cons_of_mem t hx)]
      rfl
  | false =>
    match rs, hlength hmulti with
    | [], _ => rfl
    | [t], _ =>
      have hfirst : (Value.record t).reference? known = some t :=
        Value.reference?_eq_some.mpr ⟨rfl, hknown t List.mem_cons_self⟩
      change ((Value.record t).reference? known).map (fun t => [t]) = some [t]
      rw [hfirst]
      rfl

namespace Object

variable {o : Object} {name : String} {f : Field}

theorem reads_of_shown (hname : name ≠ "id") (h : o.shown name = f) (hf : f ≠ .unset) :
    o.reads name = .ok f := by
  cases hheld : o.fields.get? name with
  | none =>
    rw [shown, hheld] at h
    exact absurd h.symm hf
  | some g =>
    rw [shown, hheld] at h
    rw [reads_of_held hname hheld]
    exact congrArg Except.ok h

/-- What shows nothing reads as unset, if its initial value is unset. -/
theorem reads_of_shown_unset (hname : name ≠ "id") (h : o.shown name = .unset)
    (hinitial : o.initial name = .ok .unset) : o.reads name = .ok .unset := by
  cases hheld : o.fields.get? name with
  | none => rw [reads_of_missing hname hheld, hinitial]
  | some g =>
    rw [shown, hheld] at h
    rw [reads_of_held hname hheld]
    exact congrArg Except.ok h

/-- A relation reads as the objects that it shows. -/
theorem reads_of_shown_ofTargets {r : Relation} {os : List ObjectId} (hname : name ≠ "id")
    (hnone : o.schema.attribute? name = none) (hr : o.schema.relation? name = some r)
    (h : o.shown name = .ofTargets r.multivalue os) :
    o.reads name = .ok (.ofTargets r.multivalue os) := by
  cases hmulti : r.multivalue with
  | true =>
    rw [hmulti] at h
    exact reads_of_shown hname h (by simp [Field.ofTargets])
  | false =>
    rw [hmulti] at h
    cases hlast : os.getLast? with
    | some x =>
      exact reads_of_shown hname h (by simp [Field.ofTargets, hlast, Field.ofTarget?])
    | none =>
      have hunset : Field.ofTargets false os = .unset := by
        simp [Field.ofTargets, hlast, Field.ofTarget?]
      rw [hunset] at h ⊢
      apply reads_of_shown_unset hname h
      rw [initial_of_relation hnone hr, hmulti]
      rfl

end Object

namespace Session

open Workspace

variable {s t u : Workspace} {os : List ObjectId} {o x y : ObjectId} {name : String}

/-- The records of objects. -/
def RecordsOf (s : Workspace) (os : List ObjectId) (r : RecordRef) : Prop :=
  ∃ o ∈ os, r = (s.world.object o).record

theorem Fresh.mem_classes (h : Fresh s os) (ho : o ∈ os) :
    (s.world.object o).className ∈ s.world.store.classes := by
  obtain ⟨d, hdeclared, -⟩ := (h.loaded o ho).declared
  exact OrderedMap.mem_keys_iff.mpr ⟨d, hdeclared⟩

/-- A session that has come to know all classes, and has no objects yet, over what was kept of new
objects. -/
structure Restorable (s base : Workspace) (os : List ObjectId) : Prop where
  fresh : Fresh s os
  scope : s.world.store.SameScope base.world.store
  visible : ∀ r, base.world.store.Visible r → s.world.store.Visible r ∨ RecordsOf s os r
  kept : ∀ o ∈ os, Kept s base o
  current : base.registry.Current base.world.store.hierarchy
  complete : base.registry.Complete base.world.store.hierarchy
  cached : ∀ className id, base.cached? className id = none

variable {base : Workspace}

namespace Restorable

variable (h : Restorable s base os)

include h

theorem known (ho : o ∈ os) :
    base.registry.schemas.contains (s.world.object o).className = true
      ∧ base.registry.types.contains (s.world.object o).className = true := by
  apply h.complete _
  rw [h.scope.hierarchy]
  exact h.fresh.mem_classes ho

/-- Both sessions know the class of an object as the same. -/
theorem schema (ho : o ∈ os) {schema : ClassSchema}
    (hschema : base.registry.schemas.get? (s.world.object o).className = some schema) :
    schema = (s.world.object o).schema := by
  have hloaded := h.current.schemas _ _ hschema
  rw [h.scope.hierarchy] at hloaded
  exact hloaded.eq (h.fresh.loaded o ho)

/-- A relation of a record leads to the records of the targets of the object. -/
theorem resolve (ho : o ∈ os) {r : Relation}
    (hr : r ∈ (s.world.object o).schema.relations.values) :
    base.resolve (s.world.object o).record r
      = ((s.world.object o).leadsTo r.name).map fun x => (s.world.object x).record := by
  have hname := (h.fresh.wellNamed ho).relation?_of_mem hr
  unfold Workspace.resolve
  rw [Store.resolve_ofRecords ((h.kept o ho).relations r hr), Option.getD_some]
  · intro t ht
    obtain ⟨x, hx, rfl⟩ := List.mem_map.mp ht
    exact (h.known (h.fresh.closed o ho r.name (OrderedMap.mem_keys_iff.mpr ⟨r, hname⟩) x hx)).1
  · intro hsingle
    rw [List.length_map]
    by_cases hid : r.name = "id"
    · rw [hid, Object.leadsTo_id]
      exact Nat.zero_le 1
    · exact ((h.fresh.built o ho).reads_relation hid (h.fresh.attribute?_eq_none ho hname) hname).2
        hsingle

theorem loadable : Loadable base (RecordsOf s os) where
  current := h.current
  stored := by
    rintro r ⟨o, ho, rfl⟩
    exact (h.kept o ho).visible.mem_allRecords
  closed := by
    rintro r schema relation t ⟨o, ho, rfl⟩ hschema hrelation ht
    obtain rfl := h.schema ho hschema
    rw [h.resolve ho hrelation] at ht
    obtain ⟨x, hx, rfl⟩ := List.mem_map.mp ht
    have hname := (h.fresh.wellNamed ho).relation?_of_mem hrelation
    exact ⟨x, h.fresh.closed o ho _ (OrderedMap.mem_keys_iff.mpr ⟨relation, hname⟩) x hx, rfl⟩
  free := by
    rintro r t ⟨x, hx, rfl⟩ ⟨y, hy, rfl⟩ hid hisA
    rw [h.scope.hierarchy] at hisA
    rw [h.fresh.unrecorded.apart x hx y hy hid hisA]
  visible := by
    rintro r ⟨o, ho, rfl⟩
    exact (h.kept o ho).visible
  known := by
    rintro r ⟨o, ho, rfl⟩
    exact (h.known ho).2

/-- Looking an object up finds its own record. -/
theorem find (ho : o ∈ os) :
    base.world.store.find (s.world.object o).className (s.world.object o).id
      = some (s.world.object o).record := by
  have hclass : (s.world.object o).className ∈ base.world.store.classes := by
    rw [h.scope.classes]
    exact h.fresh.mem_classes ho
  have hsome : (base.world.store.find (s.world.object o).className (s.world.object o).id).isSome :=
    Store.find_isSome_iff.mpr ⟨_, hclass, Hierarchy.isA_refl _ _, (h.kept o ho).visible⟩
  obtain ⟨r, hr⟩ := Option.isSome_iff_exists.mp hsome
  obtain ⟨hvisible, hid, hisA, -⟩ := Store.find_eq_some hr
  rw [h.scope.hierarchy] at hisA
  rcases h.visible r hvisible with hold | ⟨x, hx, rfl⟩
  · simp [h.fresh.unrecorded.free o ho r hold hid] at hisA
  · rw [hr, h.fresh.unrecorded.apart x hx o ho hid hisA]

end Restorable

/-! ### Images -/

/-- The object that was hydrated for an object. -/
def image (s u : Workspace) (x : ObjectId) : ObjectId :=
  (u.cached? (s.world.object x).className (s.world.object x).id).getD default

/-- An object was hydrated for an object. -/
def Imaged (s u : Workspace) (x : ObjectId) : Prop :=
  u.Stands (image s u x) ∧ (u.world.object (image s u x)).record = (s.world.object x).record

theorem image_of_stands (hy : u.Stands y)
    (hrecord : (u.world.object y).record = (s.world.object x).record) :
    image s u x = y ∧ Imaged s u x := by
  obtain ⟨hclass, hid⟩ := RecordRef.mk.inj hrecord
  have himage : image s u x = y := by
    unfold image
    rw [← hclass, ← hid, hy.cached]
    rfl
  refine ⟨himage, ?_⟩
  unfold Imaged
  rw [himage]
  exact ⟨hy, hrecord⟩

theorem image_of_stands_all {xs ys : List ObjectId} (hys : ∀ y ∈ ys, u.Stands y)
    (hrecords : ys.map (fun y => (u.world.object y).record)
      = xs.map fun x => (s.world.object x).record) :
    ys = xs.map (image s u) ∧ ∀ x ∈ xs, Imaged s u x := by
  induction xs generalizing ys with
  | nil =>
    rw [List.map_nil, List.map_eq_nil_iff] at hrecords
    exact ⟨hrecords, by simp⟩
  | cons x xs ih =>
    cases ys with
    | nil => simp at hrecords
    | cons y ys =>
      rw [List.map_cons, List.map_cons, List.cons.injEq] at hrecords
      obtain ⟨hfirst, himaged⟩ := image_of_stands (hys y List.mem_cons_self) hrecords.1
      obtain ⟨hrest, hall⟩ := ih (fun z hz => hys z (List.mem_cons_of_mem y hz)) hrecords.2
      refine ⟨by rw [List.map_cons, hfirst, hrest], fun z hz => ?_⟩
      rcases List.mem_cons.mp hz with rfl | hz
      · exact himaged
      · exact hall z hz

/-- Hydration over what was kept has ended. -/
structure Restored (s base u : Workspace) (os : List ObjectId) : Prop extends
    Restorable s base os where
  hydrating : Hydrating base (RecordsOf s os) [] u

namespace Restored

variable (h : Restored s base u os)

include h

theorem mirrors (hx : Imaged s u x) : u.Mirrors (image s u x) := by
  rcases h.hydrating.mirrored _ hx.1 with ⟨next, hnext, -⟩ | hmirrors
  · exact absurd hnext List.not_mem_nil
  · exact hmirrors

theorem schema_image (ho : x ∈ os) (hx : Imaged s u x) :
    (u.world.object (image s u x)).schema = (s.world.object x).schema := by
  have htype := hx.1.type
  rw [h.hydrating.grown.registry] at htype
  obtain ⟨-, hschema, -⟩ := h.current.types _ _ htype
  have hclass : (u.world.object (image s u x)).className = (s.world.object x).className :=
    congrArg RecordRef.className hx.2
  rw [hclass] at hschema
  exact h.schema ho hschema

/-- A relation of an image shows the images of the targets. -/
theorem shown_relation (ho : x ∈ os) (hx : Imaged s u x) {r : Relation}
    (hr : r ∈ (s.world.object x).schema.relations.values) :
    (u.world.object (image s u x)).shown r.name
        = .ofTargets r.multivalue (((s.world.object x).leadsTo r.name).map (image s u))
      ∧ ∀ y ∈ (s.world.object x).leadsTo r.name, Imaged s u y := by
  obtain ⟨ys, hshown, hrecords, hstand⟩ := (h.mirrors hx).relations r
    (by rw [h.schema_image ho hx]; exact hr)
  rw [hx.2, h.hydrating.grown.resolve, h.resolve ho hr] at hrecords
  obtain ⟨hys, himaged⟩ := image_of_stands_all hstand hrecords
  exact ⟨by rw [hshown, hys], himaged⟩

/-- An attribute of an image reads as that of the object. -/
theorem reads_attribute (ho : x ∈ os) (hx : Imaged s u x) {a : Attribute}
    (ha : (s.world.object x).schema.attribute? name = some a) (hfloat : a.type ≠ .float) :
    (u.world.object (image s u x)).reads name = (s.world.object x).reads name := by
  by_cases hid : name = "id"
  · subst hid
    rw [Object.reads_id, Object.reads_id]
    exact congrArg (fun r : RecordRef => Except.ok (Field.value (.text r.id))) hx.2
  · obtain ⟨f, v, hreads, hstored, hread⟩ := (h.kept x ho).attributes name a ha hid hfloat
    have hschema := h.schema_image ho hx
    obtain ⟨v', hread', hshown⟩ := (h.mirrors hx).attributes name a (by rw [hschema]; exact ha)
      (by rw [hschema]; exact h.fresh.disjoint x ho name (by rw [ha]; rfl))
    rw [hx.2, h.hydrating.grown.store, hread] at hread'
    cases hread'
    rcases (h.fresh.built x ho).reads_attribute hid ha ((h.fresh.loaded x ho).initialSettled ha) with
      ⟨v', hvalue, -, hheld⟩ | ⟨hunset, hinitial, -⟩
    · cases hreads.symm.trans hvalue
      cases hstored
      have hsettled : (Field.value v).settled = .value v := by
        simp [Field.settled, Field.isUnset, hheld]
      rw [hreads]
      exact Object.reads_of_shown hid (hshown.trans hsettled) (by simp)
    · cases hreads.symm.trans hunset
      cases hstored
      rw [hreads]
      apply Object.reads_of_shown_unset hid hshown
      rw [Object.initial_of_attribute ha] at hinitial
      rw [Object.initial_of_attribute (by rw [hschema]; exact ha), hinitial]

end Restored

end Session

end RecordGraph
