import RecordGraph.Proofs.OrderedMap
import RecordGraph.Proofs.Session.Building

/-!
Calls on objects, and what they do to the objects that a registry lists as updated: a call that writes
a field enters its object under its name, and a call that sets an id takes the entry of the object
along.
-/

namespace RecordGraph

open RecordGraph.Computation

theorem fullName_inj {className id id' : String} :
    fullName className id = fullName className id' ↔ id = id' :=
  (String.append_left_inj ("@" ++ className)).symm.trans (by simp [fullName, String.append_assoc])

/-! ### Runs of calls -/

/-- A call on the objects of a registry that writes at most one field or changes at most one id. -/
inductive ObjectStep
  | make (type : ClassType) (id : String)
  | set (o : ObjectId) (name : String) (f : Field)
  | setUnchecked (o : ObjectId) (name : String) (f : Field)
  | rename (o : ObjectId) (id : String)
  | reset

/-- A call on the objects of a registry. -/
inductive ObjectCall
  | single (step : ObjectStep)
  | copy (o other : ObjectId)

namespace ObjectStep

/-- The world after a step, whether it succeeds or fails. -/
def run (r : RegistryId) (w : World) : ObjectStep → World
  | .make type id => (Action.newObject type id w).2
  | .set o name f => (o.set name f w).2
  | .setUnchecked o name f => (o.setUnchecked name f w).2
  | .rename o id => (o.rename id w).2
  | .reset => (r.resetUpdated w).2

/-- The objects that a step works on were made. -/
def Exists (w : World) : ObjectStep → Prop
  | .set o _ _ | .setUnchecked o _ _ | .rename o _ => o.index < w.objects.size
  | .make .. | .reset => True

instance (w : World) : (step : ObjectStep) → Decidable (step.Exists w)
  | .set o _ _ | .setUnchecked o _ _ | .rename o _ =>
    inferInstanceAs (Decidable (o.index < w.objects.size))
  | .make .. | .reset => isTrue trivial

/-- What a step comes to. -/
inductive Effect
  | idle
  | write (o : ObjectId)
  | move (o : ObjectId) (id : String)
  | reset

/-- What a step comes to that writes a field successfully. -/
def Effect.ofWrite (o : ObjectId) (name : String) (f : Field) : Effect :=
  match name, f with
  | "id", .value (.text id) => .move o id
  | _, _ => .write o

/-- What a step comes to: nothing if it fails, a move if it sets an id, else a write. -/
def effect (w : World) : ObjectStep → Effect
  | .make .. => .idle
  | .set o name f =>
    match (o.set name f w).1 with
    | .ok _ => .ofWrite o name f
    | .error _ => .idle
  | .setUnchecked o name f =>
    match (o.setUnchecked name f w).1 with
    | .ok _ => .ofWrite o name f
    | .error _ => .idle
  | .rename o id => if id = (w.object o).id then .idle else .move o id
  | .reset => .reset

end ObjectStep

namespace ObjectCall

/-- The world after a call. -/
def run (r : RegistryId) (w : World) : ObjectCall → World
  | .single step => step.run r w
  | .copy o other => (o.copy other w).2

/-- The steps that a call is made of: copying writes one field after the other. -/
def steps (w : World) : ObjectCall → List ObjectStep
  | .single step => [step]
  | .copy o other =>
    ((w.object other).fields.entries.filter fun e => (w.object o).schema.hasField e.1).map
      fun e => .setUnchecked o e.1 e.2

end ObjectCall

namespace ObjectStep.Effect

variable {r : RegistryId} {w : World} {o x : ObjectId}

/-- The record that an object stands for after a step. -/
def record (w : World) (x : ObjectId) : Effect → RecordRef
  | .move o id => if x = o then ⟨(w.object o).className, id⟩ else (w.object x).record
  | _ => (w.object x).record

/-- The objects that were written since the last reset after a step, given those before it. -/
def written (r : RegistryId) (w : World) (before : List ObjectId) : Effect → List ObjectId
  | .write o => if (w.object o).type.home = r then o :: before else before
  | .reset => []
  | .idle | .move .. => before

/-- The objects that a registry lists after a step. -/
def updated (r : RegistryId) (w : World) : Effect → OrderedMap String ObjectId
  | .idle => (w.registry r).updated
  | .write o =>
    if (w.object o).type.home = r then (w.registry r).updated.insertNew (w.nameOf o) o
    else (w.registry r).updated
  | .move o id =>
    if (w.object o).type.home = r ∧ (w.registry r).updated.get? (w.nameOf o) = some o then
      ((w.registry r).updated.erase (w.nameOf o)).insertNew (fullName (w.object o).className id) o
    else (w.registry r).updated
  | .reset => .empty

theorem record_move_self {id : String} :
    (Effect.move o id).record w o = ⟨(w.object o).className, id⟩ := if_pos rfl

theorem record_move_of_ne {id : String} (hx : x ≠ o) :
    (Effect.move o id).record w x = (w.object x).record := if_neg hx

end ObjectStep.Effect

/-- After a step, every written object is listed under its name, or an equal one is. -/
def ObjectStep.Effect.Lists (r : RegistryId) (w : World) (written : List ObjectId)
    (effect : ObjectStep.Effect) : Prop :=
  ∀ x ∈ effect.written r w written, ∃ y,
    (effect.updated r w).get? (effect.record w x).fullName = some y
      ∧ effect.record w y = effect.record w x

/-- How one world comes from another by a step of some effect. -/
structure World.Takes (r : RegistryId) (w : World) (effect : ObjectStep.Effect) (w' : World) :
    Prop where
  registries : w'.registries.size = w.registries.size
  objects : w.objects.size ≤ w'.objects.size
  type : ∀ x : ObjectId, x.index < w.objects.size → (w'.object x).type = (w.object x).type
  record : ∀ x : ObjectId, x.index < w.objects.size → (w'.object x).record = effect.record w x
  updated : (w'.registry r).updated = effect.updated r w

namespace World

variable {r : RegistryId} {w : World} {o : ObjectId} {name id : String} {f : Field}

theorem takes_idle (r : RegistryId) (w : World) : w.Takes r .idle w :=
  ⟨rfl, Nat.le_refl _, fun _ _ => rfl, fun _ _ => rfl, rfl⟩

theorem updated_noteUpdated (hr : r.index < w.registries.size) :
    ((w.noteUpdated o).registry r).updated
      = if (w.object o).type.home = r then (w.registry r).updated.insertNew (w.nameOf o) o
        else (w.registry r).updated := by
  rw [noteUpdated, registry_changeRegistry]
  by_cases hhome : (w.object o).type.home = r
  · subst hhome
    rw [if_pos ⟨rfl, hr⟩, if_pos rfl]
    rfl
  · rw [if_neg fun h => hhome h.1.symm, if_neg hhome]

/-- Putting a value into a field changes neither the type nor the id of an object. -/
theorem header_changeObject_write (x : ObjectId) :
    ((w.changeObject o fun object => object.write name f).object x).type = (w.object x).type
      ∧ ((w.changeObject o fun object => object.write name f).object x).record
        = (w.object x).record := by
  rw [object_changeObject]
  split
  · rename_i hx
    obtain ⟨touched, heq⟩ := Object.write_eq (w.object o) name f
    rw [hx.1, heq]
    exact ⟨rfl, rfl⟩
  · exact ⟨rfl, rfl⟩

theorem takes_writeField (hr : r.index < w.registries.size) :
    w.Takes r (.write o) (w.writeField o name f) where
  registries := by simp [writeField, noteUpdated, changeRegistry, changeObject]
  objects := by simp [writeField, noteUpdated, changeRegistry, changeObject]
  type x _ := (header_changeObject_write x).1
  record x _ := (header_changeObject_write x).2
  updated := by
    obtain ⟨htype, hrecord⟩ := header_changeObject_write (w := w) (o := o) (f := f) o
    have hr' : r.index < (w.changeObject o fun object => object.write name f).registries.size := hr
    rw [writeField, updated_noteUpdated hr', nameOf, Object.fullName, htype, hrecord]
    rfl

theorem object_setId (ho : o.index < w.objects.size) (x : ObjectId) :
    (w.setId o id).object x = if x = o then { w.object o with id } else w.object x := by
  unfold setId
  dsimp only
  rw [object_changeRegistry, object_changeObject]
  simp [ho]

theorem takes_setId (hr : r.index < w.registries.size) (ho : o.index < w.objects.size) :
    w.Takes r (.move o id) (w.setId o id) where
  registries := by simp [setId, changeRegistry, changeObject]
  objects := by simp [setId, changeRegistry, changeObject]
  type x _ := by
    rw [object_setId ho]
    split
    · rename_i hx
      rw [hx]
    · rfl
  record x _ := by
    rw [object_setId ho, ObjectStep.Effect.record]
    split <;> rfl
  updated := by
    have hupdated : ((w.setId o id).registry r).updated
        = if (w.object o).type.home = r then ((w.registry r).noteRenamed o (w.nameOf o)
            (fullName (w.object o).className id)).updated else (w.registry r).updated := by
      unfold setId
      dsimp only
      rw [registry_changeRegistry]
      by_cases hhome : (w.object o).type.home = r
      · subst hhome
        rw [if_pos ⟨rfl, hr⟩, if_pos rfl]
        rfl
      · rw [if_neg fun h => hhome h.1.symm, if_neg hhome]
        rfl
    rw [hupdated, ObjectStep.Effect.updated, Registry.noteRenamed]
    split
    · rename_i hhome
      split
      · rename_i hheld
        rw [if_pos ⟨hhome, hheld⟩]
      · rename_i hheld
        rw [if_neg fun h => hheld h.2]
    · rename_i hhome
      rw [if_neg fun h => hhome h.1]

/-- Worlds whose objects have the same types and ids take the same steps. -/
theorem Takes.of_eq {v w' : World} {effect : ObjectStep.Effect} (h : v.Takes r effect w')
    (hregistries : v.registries = w.registries) (hobjects : v.objects.size = w.objects.size)
    (htype : ∀ x, (v.object x).type = (w.object x).type)
    (hrecord : ∀ x, (v.object x).record = (w.object x).record) : w.Takes r effect w' where
  registries := by rw [h.registries, hregistries]
  objects := hobjects ▸ h.objects
  type x hx := by rw [h.type x (hobjects.symm ▸ hx), htype]
  record x hx := by
    rw [h.record x (hobjects.symm ▸ hx)]
    unfold ObjectStep.Effect.record Object.className
    simp only [htype, hrecord]
  updated := by
    have hregistry : v.registry r = w.registry r := by
      unfold registry
      rw [hregistries]
    have hname : ∀ x, v.nameOf x = w.nameOf x := fun x => congrArg RecordRef.fullName (hrecord x)
    rw [h.updated]
    unfold ObjectStep.Effect.updated Object.className
    simp only [htype, hname, hregistry]

end World

namespace ObjectStep

open World

variable {r : RegistryId} {w : World} {step : ObjectStep}

theorem takes_newObject (type : ClassType) (id : String) :
    w.Takes r .idle (Action.newObject type id w).2 := by
  have hobject : ∀ x : ObjectId, x.index < w.objects.size →
      (Action.newObject type id w).2.object x = w.object x := fun x hx => by
    change (w.objects.push { type, id }).read x.index = _
    rw [Arena.read_push, if_neg (Nat.ne_of_lt hx)]
    rfl
  refine ⟨rfl, ?_, fun x hx => by rw [hobject x hx], fun x hx => by rw [hobject x hx]; rfl, rfl⟩
  change w.objects.size ≤ (w.objects.push { type, id }).size
  rw [Arena.size_push]
  exact Nat.le_succ _

theorem takes_rename {o : ObjectId} {id : String} (hr : r.index < w.registries.size)
    (ho : o.index < w.objects.size) :
    w.Takes r ((rename o id).effect w) ((rename o id).run r w) := by
  change w.Takes r (if id = (w.object o).id then .idle else .move o id)
    (if id = (w.object o).id then w
      else (w.changeObject o fun object =>
        { object with oldId := some object.storedId }).setId o id)
  split
  · exact takes_idle r w
  · let noted := w.changeObject o fun object => { object with oldId := some object.storedId }
    have hheader : ∀ x, (noted.object x).type = (w.object x).type
        ∧ (noted.object x).record = (w.object x).record := fun x => by
      rw [object_changeObject]
      split
      · rename_i hx
        rw [hx.1]
        exact ⟨rfl, rfl⟩
      · exact ⟨rfl, rfl⟩
    have hsize : noted.objects.size = w.objects.size := Arena.size_change ..
    have hmove : noted.Takes r (.move o id) (noted.setId o id) := takes_setId hr (hsize ▸ ho)
    exact hmove.of_eq rfl hsize (fun x => (hheader x).1) fun x => (hheader x).2

theorem takes_ofWrite {o : ObjectId} {name : String} {f g : Field}
    (hr : r.index < w.registries.size)
    (hname : ¬ ∃ id, name = "id" ∧ f = .value (.text id)) :
    w.Takes r (.ofWrite o name f) (w.writeField o name g) := by
  unfold Effect.ofWrite
  split
  · exact absurd ⟨_, rfl, rfl⟩ hname
  · exact takes_writeField hr

/-- A write that sets no id fails or writes what the schema accepts. -/
theorem run_set_cases {o : ObjectId} {name : String} {f : Field}
    (hname : ¬ ∃ id, name = "id" ∧ f = .value (.text id)) :
    (∃ e, o.set name f w = (.error e, w)) ∨ ∃ g, o.set name f w = (.ok (), w.writeField o name g) := by
  unfold ObjectId.set
  split
  · rename_i hid
    subst hid
    split
    · exact absurd ⟨_, rfl, rfl⟩ hname
    · exact .inl ⟨_, Action.ask_apply ..⟩
  · rw [bind_apply, Action.ask_apply]
    cases w.accept (w.object o) name f with
    | error e => exact .inl ⟨e, rfl⟩
    | ok g => exact .inr ⟨g, rfl⟩

theorem takes_set {o : ObjectId} {name : String} {f : Field} (hr : r.index < w.registries.size)
    (ho : o.index < w.objects.size) :
    w.Takes r ((set o name f).effect w) ((set o name f).run r w) := by
  dsimp only [effect, run]
  by_cases hname : ∃ id, name = "id" ∧ f = .value (.text id)
  · obtain ⟨id, rfl, rfl⟩ := hname
    exact takes_setId hr ho
  · rcases run_set_cases (w := w) (o := o) hname with ⟨e, heq⟩ | ⟨g, heq⟩
    · rw [heq]
      exact takes_idle r w
    · rw [heq]
      exact takes_ofWrite hr hname

/-- An unchecked write that sets no id writes a field that the class has. -/
theorem setUnchecked_apply {o : ObjectId} {name : String} {f : Field}
    (hname : ¬ ∃ id, name = "id" ∧ f = .value (.text id)) :
    o.setUnchecked name f w = if (w.object o).schema.hasField name then (.ok (), w.writeField o name f)
      else (.error (.unknownField (w.object o).className name), w) := by
  unfold ObjectId.setUnchecked
  split
  · exact absurd ⟨_, rfl, rfl⟩ hname
  · rw [bind_of_ok (get_apply w)]
    split <;> rfl

theorem takes_setUnchecked {o : ObjectId} {name : String} {f : Field}
    (hr : r.index < w.registries.size) (ho : o.index < w.objects.size) :
    w.Takes r ((setUnchecked o name f).effect w) ((setUnchecked o name f).run r w) := by
  dsimp only [effect, run]
  by_cases hname : ∃ id, name = "id" ∧ f = .value (.text id)
  · obtain ⟨id, rfl, rfl⟩ := hname
    exact takes_setId hr ho
  · rw [setUnchecked_apply hname]
    by_cases hhas : (w.object o).schema.hasField name
    · rw [if_pos hhas]
      exact takes_ofWrite hr hname
    · rw [if_neg hhas]
      exact takes_idle r w

theorem takes_reset (hr : r.index < w.registries.size) :
    w.Takes r .reset (reset.run r w) := by
  refine ⟨?_, Nat.le_refl _, fun _ _ => rfl, fun _ _ => rfl, ?_⟩
  · exact Arena.size_change ..
  · change ((w.changeRegistry r fun registry => { registry with updated := .empty }).registry r).updated
      = _
    rw [registry_changeRegistry, if_pos ⟨rfl, hr⟩]
    rfl

/-- Every step is of its effect. -/
theorem takes_run (hr : r.index < w.registries.size) (hexists : step.Exists w) :
    w.Takes r (step.effect w) (step.run r w) := by
  cases step with
  | make type id => exact takes_newObject type id
  | set o name f => exact takes_set hr hexists
  | setUnchecked o name f => exact takes_setUnchecked hr hexists
  | rename o id => exact takes_rename hr hexists
  | reset => exact takes_reset hr

/-- What a step writes was made, if the step works on objects that were. -/
theorem made_written {written : List ObjectId} (hexists : step.Exists w)
    (hmade : ∀ x ∈ written, x.index < w.objects.size) :
    ∀ x ∈ (step.effect w).written r w written, x.index < w.objects.size := by
  have hwrite : ∀ {o name f}, o.index < w.objects.size →
      ∀ x ∈ (Effect.ofWrite o name f).written r w written, x.index < w.objects.size := by
    intro o name f ho x hx
    unfold Effect.ofWrite at hx
    split at hx
    · exact hmade x hx
    · dsimp only [Effect.written] at hx
      split at hx
      · exact (List.mem_cons.mp hx).elim (fun heq => heq ▸ ho) (hmade x)
      · exact hmade x hx
  cases step with
  | make type id => exact hmade
  | reset => exact fun x hx => absurd hx List.not_mem_nil
  | rename o id =>
    dsimp only [effect]
    split <;> exact hmade
  | set o name f | setUnchecked o name f =>
    dsimp only [effect]
    split
    · exact hwrite hexists
    · exact hmade

end ObjectStep

end RecordGraph
