import RecordGraph.Object.Operations
import RecordGraph.Proofs.Computation
import RecordGraph.Proofs.Object.Shown

/-!
Reading objects.  Reading a field may make the object keep what was read, which changes nothing that
can be read afterwards.
-/

namespace RecordGraph

open RecordGraph.Computation

namespace Object

variable {o p q : Object} {name : String} {f : Field}

/-- What a field reads as. -/
def reads (o : Object) (name : String) : Except Error Field := (o.read name).map Prod.fst

/-- The objects that a field leads to. -/
def leadsTo (o : Object) (name : String) : List ObjectId :=
  match o.reads name with
  | .ok f => f.targets
  | .error _ => []

/-- Two objects of one type and id that read the same. -/
structure Alike (o p : Object) : Prop where
  type : p.type = o.type
  id : p.id = o.id
  reads : ∀ name, p.reads name = o.reads name

theorem Alike.refl (o : Object) : o.Alike o := ⟨rfl, rfl, fun _ => rfl⟩

theorem Alike.trans (hop : o.Alike p) (hpq : p.Alike q) : o.Alike q where
  type := hpq.type.trans hop.type
  id := hpq.id.trans hop.id
  reads name := (hpq.reads name).trans (hop.reads name)

theorem Alike.record (h : o.Alike p) : p.record = o.record := by
  unfold Object.record className
  rw [h.type, h.id]

theorem Alike.fullName (h : o.Alike p) : p.fullName = o.fullName := by
  unfold Object.fullName
  rw [h.record]

theorem Alike.schema (h : o.Alike p) : p.schema = o.schema := congrArg ClassType.schema h.type

theorem reads_id (o : Object) : o.reads "id" = .ok (.value (.text o.id)) := rfl

theorem reads_of_held (hid : name ≠ "id") (hf : o.fields.get? name = some f) :
    o.reads name = .ok f := by
  simp [reads, read, hid, hf, Except.map]

theorem reads_of_missing (hid : name ≠ "id") (hf : o.fields.get? name = none) :
    o.reads name = o.initial name := by
  unfold reads read
  rw [if_neg hid, hf]
  cases hinitial : o.initial name with
  | error e => rfl
  | ok f => cases f <;> rfl

/-- A field of the class reads. -/
theorem exists_reads (h : o.schema.hasField name = true) : ∃ f, o.reads name = .ok f := by
  by_cases hid : name = "id"
  · subst hid
    exact ⟨_, reads_id o⟩
  · cases hf : o.fields.get? name with
    | some f => exact ⟨f, reads_of_held hid hf⟩
    | none =>
      rw [reads_of_missing hid hf, initial]
      cases ha : o.schema.attribute? name with
      | some a =>
        dsimp only
        cases a.initial? <;> exact ⟨_, rfl⟩
      | none =>
        cases hr : o.schema.relation? name with
        | some r => exact ⟨_, rfl⟩
        | none =>
          have hattribute : o.schema.attributes.contains name = false := by
            rw [← OrderedMap.get?_isSome]
            exact congrArg Option.isSome ha
          have hrelation : o.schema.relations.contains name = false := by
            rw [← OrderedMap.get?_isSome]
            exact congrArg Option.isSome hr
          simp [ClassSchema.hasField, hattribute, hrelation] at h

/-- What an object reads as depends on nothing but its type, its id and its fields. -/
theorem alike_of_eq (htype : p.type = o.type) (hid : p.id = o.id) (hfields : p.fields = o.fields) :
    o.Alike p := by
  refine ⟨htype, hid, fun name => ?_⟩
  by_cases hname : name = "id"
  · subst hname
    rw [reads_id, reads_id, hid]
  · cases hheld : o.fields.get? name with
    | some f => rw [reads_of_held hname hheld, reads_of_held hname ((hfields ▸ hheld))]
    | none =>
      rw [reads_of_missing hname hheld, reads_of_missing hname (hfields ▸ hheld)]
      unfold initial schema className
      rw [htype]

/-- What an object keeps of an initial value. -/
theorem reads_insert_initial (hid : name ≠ "id") (hf : o.fields.get? name = none)
    (hinitial : o.initial name = .ok f) :
    o.Alike { o with fields := o.fields.insert name f } := by
  refine ⟨rfl, rfl, fun other => ?_⟩
  by_cases hother : other = "id"
  · subst hother
    rfl
  · by_cases heq : other = name
    · subst heq
      rw [reads_of_missing hid hf, hinitial]
      exact reads_of_held hid (by simp [OrderedMap.get?_insert])
    · have hget : (o.fields.insert name f).get? other = o.fields.get? other := by
        rw [OrderedMap.get?_insert, if_neg heq]
      cases hheld : o.fields.get? other with
      | some g => rw [reads_of_held hother hheld, reads_of_held hother (hget.trans hheld)]
      | none =>
        rw [reads_of_missing hother hheld, reads_of_missing hother (hget.trans hheld)]
        rfl

/-- Reading a field changes nothing of an object but its fields. -/
theorem exists_fields_of_read (h : o.read name = .ok (f, p)) : ∃ fields, p = { o with fields } := by
  unfold read at h
  split at h
  · cases h
    exact ⟨o.fields, rfl⟩
  · split at h
    · cases h
      exact ⟨o.fields, rfl⟩
    · cases hinitial : o.initial name with
      | error e => simp [hinitial, bind, Except.bind] at h
      | ok g =>
        simp only [hinitial, bind, Except.bind] at h
        cases g <;> cases h <;> exact ⟨_, rfl⟩

/-- Reading a field gives what it reads as, and an object that reads the same. -/
theorem read_eq_ok (h : o.read name = .ok (f, p)) :
    o.reads name = .ok f ∧ o.Alike p ∧ p.touched = o.touched := by
  refine ⟨by rw [reads, h]; rfl, ?_⟩
  unfold read at h
  split at h
  · cases h
    exact ⟨.refl o, rfl⟩
  · rename_i hid
    split at h
    · cases h
      exact ⟨.refl o, rfl⟩
    · rename_i hget
      cases hinitial : o.initial name with
      | error e => simp [hinitial, bind, Except.bind] at h
      | ok g =>
        simp only [hinitial, bind, Except.bind] at h
        cases g with
        | unset =>
          cases h
          exact ⟨.refl o, rfl⟩
        | _ =>
          cases h
          exact ⟨reads_insert_initial hid hget hinitial, rfl⟩

end Object

namespace ObjectId

variable {w w' : World} {o : ObjectId} {name : String} {f : Field}

/-- Reading a field of an object in a world. -/
theorem get_run (hrun : o.get name w = (.ok f, w')) :
    (w.object o).reads name = .ok f ∧ ∃ object, w' = w.changeObject o (fun _ => object)
      ∧ (w.object o).Alike object ∧ object.touched = (w.object o).touched := by
  obtain ⟨⟨g, object⟩, w₁, hask, hrun⟩ := bind_eq_ok.mp hrun
  unfold Action.ask at hask
  rw [bind_of_ok (get_apply w), ofExcept_apply] at hask
  obtain ⟨hread, rfl⟩ := Prod.mk.inj hask
  obtain ⟨_, w₂, hmodify, hpure⟩ := bind_eq_ok.mp hrun
  obtain ⟨-, rfl⟩ := Prod.mk.inj hmodify
  obtain ⟨heq, rfl⟩ := Prod.mk.inj hpure
  cases heq
  obtain ⟨hreads, halike, htouched⟩ := Object.read_eq_ok hread
  exact ⟨hreads, object, rfl, halike, htouched⟩

end ObjectId

end RecordGraph
