import RecordGraph.Proofs.Object.Building
import RecordGraph.Proofs.Object.Traversal
import RecordGraph.Proofs.Session.Persisting
import RecordGraph.Proofs.Session.Recording

/-!
What the store keeps of new objects.  After an update that may skip nothing, the record of every object
holds what the object reads as: attributes as they are, and relations as the records of their targets.
-/

namespace RecordGraph

open RecordGraph.Computation

theorem Value.mem_of_mem_targets_ofRecords {multivalue : Bool} {rs : List RecordRef} {r : RecordRef}
    (h : r ∈ (Value.ofRecords multivalue rs).targets) : r ∈ rs := by
  unfold Value.ofRecords at h
  cases multivalue with
  | true =>
    simp only [if_true, Value.targets] at h
    induction rs with
    | nil => simp [Value.targets.go] at h
    | cons x rs ih =>
      simp only [List.map_cons, Value.targets.go, Value.targets, List.singleton_append,
        List.mem_cons] at h
      exact List.mem_cons.mpr (h.imp_right ih)
  | false =>
    simp only [Bool.false_eq_true, if_false] at h
    cases rs with
    | nil => simp [Value.targets] at h
    | cons x rs =>
      simp only [List.head?_cons, Value.targets, List.mem_singleton] at h
      exact h ▸ List.mem_cons_self

theorem Value.orEmpty_ofRecords (multivalue : Bool) (rs : List RecordRef) :
    (Value.ofRecords multivalue rs).orEmpty multivalue = .ofRecords multivalue rs := by
  cases multivalue with
  | true => rfl
  | false => cases rs <;> rfl

theorem filterMap_eq_map_of_some {α β : Type} {f : α → Option β} {g : α → β} {xs : List α}
    (h : ∀ x ∈ xs, f x = some (g x)) : xs.filterMap f = xs.map g := by
  induction xs with
  | nil => rfl
  | cons x xs ih =>
    rw [List.filterMap_cons, h x List.mem_cons_self, List.map_cons,
      ih fun y hy => h y (List.mem_cons_of_mem x hy)]

namespace Session

open Workspace

variable {s t u : Workspace} {root o x : ObjectId} {targets : Targets} {os : List ObjectId}
  {name : String}

/-- Newly built objects that lead only to each other, of classes that the store has as the session
knows them. -/
structure Fresh (s : Workspace) (os : List ObjectId) : Prop where
  active : ∀ place, s.session.active = some place → place ∈ s.world.store.loaded
  schema : ∀ o ∈ os, s.registry.schemas.get? (s.world.object o).className
    = some (s.world.object o).schema
  loaded : ∀ o ∈ os, ClassSchema.LoadedFrom s.world.store.hierarchy (s.world.object o).className
    (s.world.object o).schema
  built : ∀ o ∈ os, (s.world.object o).Built
  unrecorded : Unrecorded s os
  closed : ∀ o ∈ os, ∀ name ∈ (s.world.object o).schema.relations.keys,
    ∀ x ∈ (s.world.object o).leadsTo name, x ∈ os
  disjoint : ∀ o ∈ os, ∀ name, ((s.world.object o).schema.attribute? name).isSome = true →
    (s.world.object o).schema.relation? name = none

/-- The record of an object holds what the object reads as. -/
structure Kept (s t : Workspace) (o : ObjectId) : Prop where
  visible : t.world.store.Visible (s.world.object o).record
  attributes : ∀ name a, (s.world.object o).schema.attribute? name = some a → name ≠ "id" →
    a.type ≠ .float → ∃ f v, (s.world.object o).reads name = .ok f ∧ f.asStored? = some v
      ∧ t.world.store.read (s.world.object o).record name a.getter = .ok v
  relations : ∀ r ∈ (s.world.object o).schema.relations.values,
    t.world.store.read (s.world.object o).record r.name r.accessor
      = .ok (.ofRecords r.multivalue
        (((s.world.object o).leadsTo r.name).map fun x => (s.world.object x).record))

theorem Fresh.wellNamed (h : Fresh s os) (ho : o ∈ os) : (s.world.object o).schema.WellNamed :=
  (h.loaded o ho).wellNamed

theorem Fresh.attribute?_eq_none (h : Fresh s os) (ho : o ∈ os) {r : Relation}
    (hr : (s.world.object o).schema.relation? name = some r) :
    (s.world.object o).schema.attribute? name = none := by
  cases ha : (s.world.object o).schema.attribute? name with
  | none => rfl
  | some a =>
    have hnone := h.disjoint o ho name (by rw [ha]; rfl)
    rw [hr] at hnone
    cases hnone

/-- Objects of their own have records of their own. -/
theorem Fresh.record_injective (h : Fresh s os) (hx : x ∈ os) (ho : o ∈ os)
    (heq : (s.world.object x).record = (s.world.object o).record) : x = o :=
  h.unrecorded.names x hx o ho (congrArg RecordRef.fullName heq)

theorem Recorded.recordFor_eq (h : Recorded s t targets os) (hst : s.Steady t) (hx : x ∈ os) :
    t.world.recordFor targets x = some (s.world.object x).record := by
  obtain ⟨target, htarget, -, hrecord⟩ := h.target x hx
  unfold World.recordFor
  rw [hst.nameOf, htarget]
  exact congrArg some hrecord

theorem Recorded.targetOf_eq (h : Recorded s t targets os) (hst : s.Steady t) (hx : x ∈ os) :
    t.world.targetOf targets x = some (s.world.object x).record := by
  obtain ⟨target, htarget, -, hrecord⟩ := h.target x hx
  rw [World.targetOf, hst.nameOf, htarget]
  exact congrArg some hrecord

/-- A relation between the objects is written as their records. -/
theorem relationValue_eq_ofRecords (hfresh : Fresh s os) (hrecorded : Recorded s t targets os)
    (hst : s.Steady t) (ho : o ∈ os) {r : Relation}
    (hr : r ∈ (s.world.object o).schema.relations.values) :
    t.world.relationValue targets o r = .ofRecords r.multivalue
      (((s.world.object o).leadsTo r.name).map fun x => (s.world.object x).record) := by
  have hleads : (t.world.object o).leadsTo r.name = (s.world.object o).leadsTo r.name := by
    unfold Object.leadsTo
    rw [(hst.alike o).reads]
  have hname := OrderedMap.mem_keys_iff.mpr ⟨r, (hfresh.wellNamed ho).relation?_of_mem hr⟩
  have hall : ∀ x ∈ (s.world.object o).leadsTo r.name,
      t.world.recordFor targets x = some (s.world.object x).record :=
    fun x hx => hrecorded.recordFor_eq hst (hfresh.closed o ho r.name hname x hx)
  unfold World.relationValue
  rw [hleads]
  rw [filterMap_eq_map_of_some hall]

/-- The field of a class reads, as far as the store is concerned. -/
theorem Fresh.checkField (h : Fresh s os) (ho : o ∈ os)
    (hscope : s.world.store.SameScope t.world.store)
    (hname : ((s.world.object o).schema.attribute? name).isSome = true
      ∨ ((s.world.object o).schema.relation? name).isSome = true) :
    t.world.store.checkField (s.world.object o).record name = .ok () := by
  apply Store.checkField_of_hasField
  rw [hscope.hierarchy]
  exact (h.loaded o ho).hasField hname

/-- An update that may skip nothing, of new objects: their records were prepared, and then the objects
were written. -/
structure FreshUpdate (targets : Targets) (os : List ObjectId) (s u t : Workspace) : Prop where
  fresh : Fresh s os
  adds : s.Adds u
  recorded : Recorded s u targets os
  prepared : Prepared targets os u
  written : os.forM (writeObject { policy := .pedantic, recursive := true, createOnly := false }
    targets) u = (.ok (), t)

theorem freshUpdate_of_updateWith {p : ProxyId} (hfresh : Fresh s (s.world.traverse root))
    (hrun : updateWith .pedantic root true s = (.ok p, t)) :
    ∃ targets u, FreshUpdate targets (s.world.traverse root) s u t := by
  obtain ⟨targets, u, hprepare, hwrite, -⟩ := persist_run hrun
  obtain ⟨hadds, hrecorded⟩ := foldlM_prepare_recorded hfresh.active hfresh.unrecorded hprepare
  obtain ⟨-, hprepared⟩ := prepared_of_foldlM (nodup_persisted s true root)
    (fun x hx => hfresh.wellNamed hx) hprepare
  exact ⟨targets, u, hfresh, hadds, hrecorded, hprepared, hwrite⟩

namespace FreshUpdate

variable (h : FreshUpdate targets os s u t)

include h

theorem writes : WritesAll targets os u t := forM_writeObject_writes rfl h.prepared h.written

theorem steady : s.Steady t := h.adds.toSteady.trans h.writes.toSteady

theorem scope : s.world.store.SameScope t.world.store := h.adds.scope.trans h.writes.shape.scope

theorem visible_iff (r : RecordRef) : t.world.store.Visible r ↔ u.world.store.Visible r := by
  unfold Store.Visible
  rw [h.writes.shape.location]

/-- An object has the record to itself that it was prepared with. -/
theorem owns (ho : o ∈ os) : ∃ target, Owns targets os u o target
    ∧ u.world.recordOf target.proxy = (s.world.object o).record
    ∧ (u.world.proxy target.proxy).schema = (s.world.object o).schema := by
  obtain ⟨target, htarget, htargeted, hrecord⟩ := h.recorded.target o ho
  refine ⟨target, ⟨ho, ?_, ?_⟩, hrecord, ?_⟩
  · rw [h.adds.nameOf]
    exact htarget
  · intro x hx hne heq
    rw [h.recorded.targetOf_eq h.adds.toSteady hx, hrecord] at heq
    exact hne (h.fresh.record_injective hx ho (Option.some.inj heq))
  · have hschema := htargeted.schema
    rw [hrecord, Registry.schema_eq_ok] at hschema
    exact Option.some.inj (hschema.symm.trans (h.fresh.schema o ho))

/-- Where the record of an object is, before and after the objects are written. -/
theorem located (ho : o ∈ os) : ∃ place,
    u.world.store.location (s.world.object o).record = some place
      ∧ t.world.store.location (s.world.object o).record = some place
      ∧ ∀ name multi, u.world.store.stored place (s.world.object o).record name multi
        = if multi then .list [] else .null := by
  obtain ⟨place, hplace, hempty⟩ := h.recorded.located o ho
  exact ⟨place, hplace, (h.writes.shape.location _).trans hplace, hempty⟩

/-- An attribute is stored as the object shows it. -/
theorem read_attribute (ho : o ∈ os) {a : Attribute}
    (ha : (s.world.object o).schema.attribute? name = some a) (hid : name ≠ "id")
    (hfloat : a.type ≠ .float) :
    ∃ f v, (s.world.object o).reads name = .ok f ∧ f.asStored? = some v
      ∧ t.world.store.read (s.world.object o).record name a.getter = .ok v := by
  obtain ⟨target, howns, hrecord, hschema⟩ := h.owns ho
  obtain ⟨place, hplace, hplace', hempty⟩ := h.located ho
  have hread : t.world.store.read (s.world.object o).record name a.getter
      = .ok (t.world.store.stored place (s.world.object o).record name a.multivalue) := by
    rw [Store.read_of_location hplace'
      (by simp [Attribute.getter, Accessor.getter, Accessor.isObject]),
      h.fresh.checkField ho h.scope (Or.inl (by rw [ha]; rfl))]
    rfl
  obtain ⟨f, hreads, hstored⟩ := forM_writeObject_attribute rfl h.prepared howns
    (by rw [h.adds.object]; exact ClassSchema.mem_attributes_of_attribute? ha)
    (by rw [h.adds.object]; exact h.fresh.disjoint o ho name (by rw [ha]; rfl)) h.written
  rw [h.adds.object] at hreads
  rcases (h.fresh.built o ho).reads_attribute hid ha
    ((h.fresh.loaded o ho).initialSettled ha) with ⟨v, hvalue, hsettled, -⟩ | ⟨hunset, -, hsingle⟩
  · cases hreads.symm.trans hvalue
    obtain ⟨a', v', ha', hcoerce, -, hwrote⟩ | ⟨hpolicy, -⟩ := hstored
    · cases ha.symm.trans (hschema ▸ ha')
      obtain rfl := Attribute.coerce_of_settled hsettled hfloat hcoerce
      rw [hrecord] at hwrote
      refine ⟨_, _, hreads, rfl, ?_⟩
      rw [hread, hwrote place, if_pos hplace, hsettled.orEmpty_eq]
    · cases hpolicy
  · cases hreads.symm.trans hunset
    have hwrote : u.Wrote t (u.world.recordOf target.proxy) name none := hstored
    rw [hrecord] at hwrote
    refine ⟨_, _, hreads, rfl, ?_⟩
    rw [hread, hwrote place, hempty, hsingle]
    rfl

/-- A relation is stored as the records of what it leads to. -/
theorem read_relation (ho : o ∈ os) {r : Relation}
    (hr : r ∈ (s.world.object o).schema.relations.values) :
    t.world.store.read (s.world.object o).record r.name r.accessor
      = .ok (.ofRecords r.multivalue
        (((s.world.object o).leadsTo r.name).map fun x => (s.world.object x).record)) := by
  obtain ⟨target, howns, hrecord, -⟩ := h.owns ho
  obtain ⟨place, hplace, hplace', -⟩ := h.located ho
  have hname := (h.fresh.wellNamed ho).relation?_of_mem hr
  have hwrote := forM_writeObject_ownRelation rfl rfl h.prepared howns
    (by rw [h.adds.object]; exact hr)
    (by rw [h.adds.object]; exact h.fresh.attribute?_eq_none ho hname) h.written
  rw [hrecord, relationValue_eq_ofRecords h.fresh h.recorded h.adds.toSteady ho hr] at hwrote
  have hstored := hwrote place r.multivalue
  rw [if_pos hplace, Value.orEmpty_ofRecords] at hstored
  have hread : t.world.store.read (s.world.object o).record r.name r.accessor
      = .ok (t.world.store.stored place (s.world.object o).record r.name r.multivalue) := by
    refine Store.read_of_visible hplace'
      (h.fresh.checkField ho h.scope (Or.inr (by rw [hname]; rfl))) fun r' hr' => ?_
    have hmulti : r.accessor.multi = r.multivalue := rfl
    rw [hmulti, hstored] at hr'
    obtain ⟨x, hx, rfl⟩ := List.mem_map.mp (Value.mem_of_mem_targets_ofRecords hr')
    have hmem := h.fresh.closed o ho r.name (OrderedMap.mem_keys_iff.mpr ⟨r, hname⟩) x hx
    obtain ⟨other, -, hother, -⟩ := h.located hmem
    exact Option.isSome_iff_exists.mpr ⟨other, hother⟩
  rw [hread, hstored]

theorem kept (ho : o ∈ os) : Kept s t o := by
  obtain ⟨place, -, hplace, -⟩ := h.located ho
  constructor
  · exact Option.isSome_iff_exists.mpr ⟨place, hplace⟩
  · exact fun name a ha hid hfloat => h.read_attribute ho ha hid hfloat
  · exact fun r hr => h.read_relation ho hr

end FreshUpdate

/-- An update that may skip nothing puts into new records what their objects read as. -/
theorem updateWith_kept {p : ProxyId} (hfresh : Fresh s (s.world.traverse root))
    (hrun : updateWith .pedantic root true s = (.ok p, t)) :
    s.Steady t ∧ s.world.store.SameScope t.world.store
      ∧ (∀ r, t.world.store.Visible r →
        s.world.store.Visible r ∨ ∃ o ∈ s.world.traverse root, r = (s.world.object o).record)
      ∧ ∀ o ∈ s.world.traverse root, Kept s t o := by
  obtain ⟨targets, u, h⟩ := freshUpdate_of_updateWith hfresh hrun
  exact ⟨h.steady, h.scope, fun r hr => h.recorded.visible r ((h.visible_iff r).mp hr),
    fun o ho => h.kept ho⟩

end Session

end RecordGraph
