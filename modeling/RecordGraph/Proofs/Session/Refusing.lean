import RecordGraph.Proofs.Session.Declaring

/-!
Unknown fields.  Reading or writing a field that the class does not have fails, through objects and
through proxies alike, and leaves everything as it is, but for one case: a checked write to an object
that clears the field passes before anybody looks at the schema.
-/

namespace RecordGraph

open RecordGraph.Computation

/-- An access to one field of an object, or of a record behind a proxy. -/
inductive FieldAccess
  | get (o : ObjectId)
  | set (o : ObjectId) (f : Field)
  | setUnchecked (o : ObjectId) (f : Field)
  | getRecord (p : ProxyId)
  | setRecord (p : ProxyId) (f : ProxyField)

namespace FieldAccess

/-- Reads or writes the field of a name. -/
def run (name : String) : FieldAccess → Action Unit
  | .get o => do
    let _ ← o.get name
  | .set o f => o.set name f
  | .setUnchecked o f => o.setUnchecked name f
  | .getRecord p => do
    let _ ← p.get name
  | .setRecord p f => p.set name f

/-- The schema of the class that is accessed. -/
def schema (w : World) : FieldAccess → ClassSchema
  | .get o => (w.object o).schema
  | .set o _ => (w.object o).schema
  | .setUnchecked o _ => (w.object o).schema
  | .getRecord p => (w.proxy p).schema
  | .setRecord p _ => (w.proxy p).schema

/-- The object whose field a checked write clears. -/
def cleared? : FieldAccess → Option ObjectId
  | .set o f => if f.isUnset then some o else none
  | _ => none

end FieldAccess

namespace OrderedMap

universe u v

theorem erase_of_get?_eq_none {κ : Type u} {ν : Type v} [DecidableEq κ] {m : OrderedMap κ ν} {k : κ}
    (h : m.get? k = none) : m.erase k = m := by
  have hnew : m.contains k = false := by rw [← get?_isSome, h]; rfl
  refine ext (List.filter_eq_self.mpr fun e he => ?_)
  have hkeys : k ∉ m.keys := fun hmem => by simp [contains_iff_mem_keys.mpr hmem] at hnew
  simpa using fun heq : e.1 = k => hkeys (heq ▸ List.mem_map_of_mem he)

end OrderedMap

namespace ClassSchema

variable {s : ClassSchema} {name : String}

theorem attribute?_of_unknown (h : s.hasField name = false) : s.attribute? name = none := by
  cases hattribute : s.attribute? name with
  | none => rfl
  | some a => simp [hasField_of_attribute hattribute] at h

theorem relation?_of_unknown (h : s.hasField name = false) : s.relation? name = none := by
  cases hrelation : s.relation? name with
  | none => rfl
  | some r => simp [hasField_of_relation hrelation] at h

end ClassSchema

namespace Object

variable {o : Object} {name : String}

theorem Declared.get?_of_unknown (h : o.Declared) (hname : o.schema.hasField name = false) :
    o.fields.get? name = none := by
  cases hheld : o.fields.get? name with
  | none => rfl
  | some f => simp [h name f hheld] at hname

theorem Declared.read_of_unknown (h : o.Declared) (hid : name ≠ "id")
    (hname : o.schema.hasField name = false) :
    o.read name = .error (.unknownField o.className name) := by
  rw [Object.read, if_neg hid, h.get?_of_unknown hname]
  have hinitial : o.initial name = .error (.unknownField o.className name) := by
    rw [initial, ClassSchema.attribute?_of_unknown hname, ClassSchema.relation?_of_unknown hname]
  rw [hinitial]
  rfl

/-- Clearing a field that the class does not have leaves an object as it is. -/
theorem Declared.write_unset_of_unknown (h : o.Declared) (hname : o.schema.hasField name = false) :
    o.write name .unset = o := by
  have hload : o.load name .unset = o := by
    unfold Object.load
    rw [if_pos (show Field.unset.isUnset = true from rfl),
      OrderedMap.erase_of_get?_eq_none (h.get?_of_unknown hname)]
  rw [Object.write, hload]
  simp [ClassSchema.relation?_of_unknown hname]

end Object

namespace World

variable {w : World} {o : ObjectId} {p : ProxyId} {name : String}

/-- Clearing a field that the class does not have does nothing but list the object as updated. -/
theorem Orderly.writeField_of_unknown (h : w.Orderly)
    (hname : (w.object o).schema.hasField name = false) :
    w.writeField o name .unset = w.noteUpdated o := by
  have hsame : (w.changeObject o fun object => object.write name .unset) = w := by
    rw [World.changeObject,
      Arena.change_eq_self (a := w.objects) ((h.objects o).write_unset_of_unknown hname)]
  rw [World.writeField, hsame]

theorem Orderly.set_of_unknown (h : w.Orderly) (hid : name ≠ "id")
    (hname : (w.object o).schema.hasField name = false) (f : Field) :
    o.set name f w = if f.isUnset then (.ok (), w.noteUpdated o)
      else (.error (.unknownField (w.object o).className name), w) := by
  have haccept : w.accept (w.object o) name f = if f.isUnset then .ok .unset
      else .error (.unknownField (w.object o).className name) := by
    rw [accept, ClassSchema.attribute?_of_unknown hname, ClassSchema.relation?_of_unknown hname]
  unfold ObjectId.set
  rw [if_neg hid, bind_apply, Action.ask_apply, haccept]
  cases f.isUnset with
  | true => exact congrArg (Except.ok (), ·) (h.writeField_of_unknown hname)
  | false => rfl

theorem getField_of_unknown (hname : (w.proxy p).schema.hasField name = false) :
    p.get name w = (.error (.unknownField (w.proxy p).schema.name name), w) := by
  rw [ProxyId.get, bind_of_ok (get_apply w), ClassSchema.attribute?_of_unknown hname]
  exact bind_of_error (ProxyId.getRelation_of_unknown (ClassSchema.relation?_of_unknown hname))

theorem setField_of_unknown (hname : (w.proxy p).schema.hasField name = false) (f : ProxyField) :
    p.set name f w = (.error (.unknownField (w.proxy p).schema.name name), w) := by
  rcases f with v | related
  · apply bind_of_error
    rw [ProxyId.setAttribute]
    apply bind_of_error
    rw [ProxyId.attributeSchema, Action.ask_apply, ClassSchema.attribute?_of_unknown hname]
  · rw [ProxyId.set, ProxyId.setRelation]
    apply bind_of_error
    rw [ProxyId.relationSchema, Action.ask_apply, ClassSchema.relation?_of_unknown hname]

end World

/-- In an orderly world, an access to a field that the class does not
have fails, unless it clears the field of an object. -/
theorem FieldAccess.run_of_unknown {w : World} {name : String} (h : w.Orderly) (access : FieldAccess)
    (hid : name ≠ "id") (hname : (access.schema w).hasField name = false) :
    (access.cleared? = none →
        access.run name w = (.error (.unknownField (access.schema w).name name), w))
      ∧ ∀ o, access.cleared? = some o → access.run name w = (.ok (), w.noteUpdated o) := by
  cases access with
  | get o =>
    refine ⟨fun _ => ?_, fun x hx => by cases hx⟩
    have hread := (h.objects o).read_of_unknown hid hname
    apply bind_of_error
    rw [ObjectId.get]
    apply bind_of_error
    rw [Action.ask_apply, hread]
    rfl
  | set o f =>
    have hset := h.set_of_unknown hid hname f
    rw [cleared?]
    cases hunset : f.isUnset with
    | true =>
      refine ⟨fun hnone => (by cases hnone), fun x hx => ?_⟩
      cases hx
      exact hset.trans (if_pos hunset)
    | false =>
      refine ⟨fun _ => hset.trans ?_, fun x hx => by cases hx⟩
      rw [hunset]
      rfl
  | setUnchecked o f =>
    refine ⟨fun _ => ?_, fun x hx => by cases hx⟩
    have hsetsId : ¬ ∃ id, name = "id" ∧ f = .value (.text id) := by
      rintro ⟨id, heq, -⟩
      exact hid heq
    have hunknown : (w.object o).schema.hasField name = false := hname
    rw [run, ObjectStep.setUnchecked_apply hsetsId, hunknown]
    rfl
  | getRecord p => exact ⟨fun _ => bind_of_error (World.getField_of_unknown hname), fun x hx => by cases hx⟩
  | setRecord p f => exact ⟨fun _ => World.setField_of_unknown hname f, fun x hx => by cases hx⟩

namespace System

variable {y : System}

/-- Whatever happened before, an access to a field that the class does not have fails and leaves
everything as it is exactly if it is not a checked write that clears the field of an object.  Such a
write passes, and does nothing but list the object as updated. -/
theorem Arises.unknown_rejected_iff (h : y.Arises) (access : FieldAccess) {name : String}
    (hid : name ≠ "id") (hname : (access.schema y.world).hasField name = false) :
    (access.run name y.world = (.error (.unknownField (access.schema y.world).name name), y.world)
        ↔ access.cleared? = none)
      ∧ ∀ o, access.cleared? = some o → access.run name y.world = (.ok (), y.world.noteUpdated o) := by
  obtain ⟨hfails, hpasses⟩ := access.run_of_unknown h.orderly hid hname
  refine ⟨⟨fun hrun => ?_, hfails⟩, hpasses⟩
  cases hcleared : access.cleared? with
  | none => rfl
  | some o => cases (Prod.mk.inj (hrun.symm.trans (hpasses o hcleared))).1

/-- An unchecked write that clears a field which the class does not have fails. -/
theorem unknown_rejected_noted :
    noted.Arises ∧ "nope" ≠ "id"
      ∧ ((FieldAccess.setUnchecked ⟨0⟩ .unset).schema noted.world).hasField "nope" = false
      ∧ (FieldAccess.setUnchecked ⟨0⟩ .unset).run "nope" noted.world
        = (.error (.unknownField "A" "nope"), noted.world) := by
  have hid : "nope" ≠ "id" := by decide
  have hname : ((FieldAccess.setUnchecked ⟨0⟩ .unset).schema noted.world).hasField "nope" = false := by
    decide +kernel
  obtain ⟨hiff, -⟩ := arises_noted.unknown_rejected_iff (.setUnchecked ⟨0⟩ .unset) hid hname
  exact ⟨arises_noted, hid, hname, hiff.mpr rfl⟩

/-- A checked write that clears a field which the class does not have passes. -/
theorem not_unknown_rejected_of_cleared :
    ¬ ∀ y : System, y.Arises → ∀ (access : FieldAccess) name, name ≠ "id" →
      (access.schema y.world).hasField name = false →
      access.run name y.world
        = (.error (.unknownField (access.schema y.world).name name), y.world) := by
  intro hall
  have hrun := hall noted arises_noted (.set ⟨0⟩ .unset) "nope" (by decide) (by decide +kernel)
  cases (Prod.mk.inj hrun).1

end System

end RecordGraph
