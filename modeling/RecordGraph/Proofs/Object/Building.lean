import RecordGraph.Object.Operations
import RecordGraph.Proofs.Object.Reading
import RecordGraph.Proofs.Schema.Coercion

/-!
Objects that were made new and written to through the checks.  Every field holds what the schema allows
it to hold, and so what a field reads as has the form of its attribute or relation.
-/

namespace RecordGraph

open RecordGraph.Computation

/-- The record under which the store knows an object. -/
def Object.storedRecord (o : Object) : RecordRef := ⟨o.className, o.storedId⟩

theorem Object.storedRecord_of_pending {o : Object} {oldId : String} (h : o.oldId = some oldId) :
    o.storedRecord = ⟨o.className, oldId⟩ := by
  rw [storedRecord, storedId, h]
  rfl

theorem Object.storedRecord_of_settled {o : Object} (h : o.oldId = none) :
    o.storedRecord = o.record := by
  rw [storedRecord, storedId, h]
  rfl

/-- What a field of a class holds after a checked write: a coerced value, or as many objects as the
relation allows. -/
inductive Field.Fits (s : ClassSchema) (name : String) : Field → Prop
  | value {a : Attribute} {v : Value} (known : s.attribute? name = some a)
      (settled : a.Settled v) (held : v.isNull = false) : Fits s name (.value v)
  | one {r : Relation} {target : ObjectId} (free : s.attribute? name = none)
      (known : s.relation? name = some r) (single : r.multivalue = false) :
      Fits s name (.object target)
  | many {r : Relation} {targets : List ObjectId} (free : s.attribute? name = none)
      (known : s.relation? name = some r) (multi : r.multivalue = true) :
      Fits s name (.objects targets)

/-- Whether a field points to one object, or to a list of them. -/
def Field.Points (multivalue : Bool) : Field → Prop
  | .object _ => multivalue = false
  | .objects _ => multivalue = true
  | _ => False

namespace World

variable {w : World} {o : Object} {name : String} {f g : Field}

/-- The check of targets passes what points to as many objects as the relation allows, all of them of
its class, and passes it as it is. -/
theorem checkTargets_eq_ok {r : Relation} :
    w.checkTargets o r f = .ok g ↔ g = f ∧ f.Points r.multivalue
      ∧ ∀ t ∈ f.targets, (w.object t).type.isA r.target = true := by
  have hfind : ∀ targets : List ObjectId,
      (∀ t ∈ targets, (w.object t).type.isA r.target = true)
        ↔ (targets.find? fun t => !(w.object t).type.isA r.target) = none := by
    simp [List.find?_eq_none]
  unfold checkTargets
  cases f with
  | object target =>
    cases r.multivalue with
    | false =>
      simp only [Field.Points, Field.targets, hfind]
      cases [target].find? fun t => !(w.object t).type.isA r.target <;> simp [@eq_comm _ g]
    | true => simp [Field.Points]
  | objects targets =>
    cases r.multivalue with
    | false => simp [Field.Points]
    | true =>
      simp only [Field.Points, Field.targets, hfind]
      cases targets.find? fun t => !(w.object t).type.isA r.target <;> simp [@eq_comm _ g]
  | _ => simp [Field.Points]

theorem checkTargets_fits {r : Relation} (free : o.schema.attribute? name = none)
    (known : o.schema.relation? name = some r) (h : w.checkTargets o r f = .ok g) :
    g.Fits o.schema name := by
  unfold checkTargets at h
  dsimp only at h
  split at h
  · rename_i target single
    split at h <;> cases h
    exact .one free known single
  · rename_i targets multi
    split at h <;> cases h
    exact .many free known multi
  · cases h

/-- What a checked write puts into a field fits the field, or clears it. -/
theorem accept_fits (h : w.accept o name f = .ok g) : g = .unset ∨ g.Fits o.schema name := by
  unfold accept at h
  split at h
  · cases h
    exact Or.inl rfl
  · rename_i hset
    cases hattribute : o.schema.attribute? name with
    | some a =>
      simp only [hattribute] at h
      cases f with
      | value v =>
        obtain ⟨v', hcoerce, hpure⟩ := except_bind_eq_ok.mp h
        cases hpure
        have hnull : v.isNull = false := by simpa [Field.isUnset] using hset
        exact Or.inr (.value hattribute (Attribute.coerce_settled hcoerce)
          (Attribute.coerce_not_null hnull hcoerce))
      | _ => cases h
    | none =>
      simp only [hattribute] at h
      cases hrelation : o.schema.relation? name with
      | some r =>
        simp only [hrelation] at h
        exact Or.inr (checkTargets_fits hattribute hrelation h)
      | none =>
        simp only [hrelation] at h
        cases h

end World

namespace Object

variable {o : Object} {name : String} {f : Field}

/-- An object that was made new and then written to through the checks. -/
structure Built (o : Object) : Prop where
  oldId : o.oldId = none
  id : o.fields.get? "id" = none
  fits : ∀ name f, o.fields.get? name = some f → f.Fits o.schema name

theorem built_new (type : ClassType) (id : String) : Built { type, id } where
  oldId := rfl
  id := rfl
  fits _ _ h := by simp at h

theorem Built.setId (h : o.Built) (id : String) : Built { o with id } := ⟨h.oldId, h.id, h.fits⟩

/-- A write changes the fields, and what is noted as touched. -/
theorem write_eq (o : Object) (name : String) (f : Field) :
    ∃ touched, o.write name f = { o.load name f with touched } := by
  unfold write
  dsimp only
  split
  · exact ⟨_, rfl⟩
  · exact ⟨_, rfl⟩

theorem Built.write (h : o.Built) (hname : name ≠ "id") (hf : f = .unset ∨ f.Fits o.schema name) :
    (o.write name f).Built := by
  obtain ⟨touched, heq⟩ := write_eq o name f
  rw [heq]
  unfold load
  refine ⟨h.oldId, ?_, ?_⟩
  · cases f.isUnset with
    | true =>
      simp only [if_true]
      rw [OrderedMap.get?_erase, h.id, ite_self]
    | false =>
      simp only [Bool.false_eq_true, if_false]
      rw [OrderedMap.get?_insert, if_neg hname.symm, h.id]
  · intro other g hg
    cases hunset : f.isUnset with
    | true =>
      simp only [hunset, if_true, OrderedMap.get?_erase] at hg
      split at hg
      · cases hg
      · exact h.fits other g hg
    | false =>
      simp only [hunset, Bool.false_eq_true, if_false, OrderedMap.get?_insert] at hg
      split at hg
      · rename_i heq
        cases hg
        subst heq
        rcases hf with rfl | hf
        · cases hunset
        · exact hf
      · exact h.fits other g hg

theorem initial_of_attribute {a : Attribute} (ha : o.schema.attribute? name = some a) :
    o.initial name = .ok (match a.initial? with
      | some v => .value v
      | none => if a.multivalue then .value (.list []) else .unset) := by
  unfold initial
  rw [ha]
  cases hinitial : a.initial? <;> simp only [hinitial]

theorem initial_of_relation {r : Relation} (hnone : o.schema.attribute? name = none)
    (hr : o.schema.relation? name = some r) :
    o.initial name = .ok (if r.multivalue then .objects [] else .unset) := by
  unfold initial
  rw [hnone, hr]

/-- What an attribute reads as: a value of its form, or nothing, as does a field that holds nothing. -/
theorem Built.reads_attribute {a : Attribute} (h : o.Built) (hname : name ≠ "id")
    (ha : o.schema.attribute? name = some a) (hinitial : a.InitialSettled) :
    (∃ v, o.reads name = .ok (.value v) ∧ a.Settled v ∧ v.isNull = false)
      ∨ o.reads name = .ok .unset ∧ o.initial name = .ok .unset ∧ a.multivalue = false := by
  cases hf : o.fields.get? name with
  | some f =>
    rw [reads_of_held hname hf]
    cases h.fits name f hf with
    | value known settled held =>
      cases ha.symm.trans known
      exact Or.inl ⟨_, rfl, settled, held⟩
    | one free => simp [ha] at free
    | many free => simp [ha] at free
  | none =>
    rw [reads_of_missing hname hf, initial_of_attribute ha]
    cases hvalue : a.initial? with
    | some v =>
      obtain ⟨hsettled, hheld⟩ := hinitial v hvalue
      exact Or.inl ⟨v, rfl, hsettled, hheld⟩
    | none =>
      cases hmulti : a.multivalue with
      | true => exact Or.inl ⟨.list [], rfl, ⟨hmulti, by simp⟩, rfl⟩
      | false => exact Or.inr ⟨rfl, rfl, rfl⟩

/-- What a relation reads as. -/
theorem Built.reads_relation {r : Relation} (h : o.Built) (hname : name ≠ "id")
    (hnone : o.schema.attribute? name = none) (hr : o.schema.relation? name = some r) :
    o.reads name = .ok (.ofTargets r.multivalue (o.leadsTo name))
      ∧ (r.multivalue = false → (o.leadsTo name).length ≤ 1) := by
  have hread : ∀ f, o.reads name = .ok f → f = .ofTargets r.multivalue f.targets →
      (r.multivalue = false → f.targets.length ≤ 1) →
      o.reads name = .ok (.ofTargets r.multivalue (o.leadsTo name))
        ∧ (r.multivalue = false → (o.leadsTo name).length ≤ 1) := by
    intro f hf heq hlength
    have hleads : o.leadsTo name = f.targets := by rw [leadsTo, hf]
    rw [hleads, ← heq]
    exact ⟨hf, hlength⟩
  cases hf : o.fields.get? name with
  | some f =>
    apply hread f (reads_of_held hname hf)
    · cases h.fits name f hf with
      | value known => simp [hnone] at known
      | one _ known single =>
        cases hr.symm.trans known
        rw [single]
        rfl
      | many _ known multi =>
        cases hr.symm.trans known
        rw [multi]
        rfl
    · cases h.fits name f hf with
      | value known => simp [hnone] at known
      | one _ known single => exact fun _ => Nat.le_refl 1
      | many _ known multi =>
        cases hr.symm.trans known
        simp [multi]
  | none =>
    have hinitial := reads_of_missing hname hf
    rw [initial_of_relation hnone hr] at hinitial
    apply hread _ hinitial
    · cases hmulti : r.multivalue <;> rfl
    · cases hmulti : r.multivalue <;> simp [Field.targets]

end Object

end RecordGraph
