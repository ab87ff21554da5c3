import RecordGraph.Proofs.Object.Building
import RecordGraph.Proofs.Session.Growth
import RecordGraph.Session.Operations

/-!
Building objects in a session.  Whatever is made and set, and whether it succeeds or not, the store
and the types of the registries stay as they are, and every new object is of a registered type and
holds what its schema allows.
-/

namespace RecordGraph

open RecordGraph.Computation

namespace World

variable {w : World} {o : ObjectId} {name : String} {f : Field}

/-- Setting a field fails without a trace, renames the object, or writes what was accepted. -/
theorem set_cases (w : World) (o : ObjectId) (name : String) (f : Field) :
    (o.set name f w).2 = w ∨ (name = "id" ∧ ∃ id, (o.set name f w).2 = w.setId o id)
      ∨ name ≠ "id" ∧ ∃ g, w.accept (w.object o) name f = .ok g
        ∧ (o.set name f w).2 = w.writeField o name g := by
  unfold ObjectId.set
  split
  · rename_i hname
    split
    · exact Or.inr (Or.inl ⟨hname, _, rfl⟩)
    · exact Or.inl (by rw [Action.ask_apply])
  · rename_i hname
    cases haccept : w.accept (w.object o) name f with
    | error e =>
      rw [bind_of_error (e := e) (by rw [Action.ask_apply, haccept])]
      exact Or.inl rfl
    | ok g =>
      rw [bind_of_ok (a := g) (by rw [Action.ask_apply, haccept])]
      exact Or.inr (Or.inr ⟨hname, g, rfl, rfl⟩)

/-- Two worlds whose registries know the same schemas and types. -/
structure SameTypes (v w : World) : Prop where
  schemas : ∀ r, (w.registry r).schemas = (v.registry r).schemas
  types : ∀ r, (w.registry r).types = (v.registry r).types

theorem SameTypes.refl (w : World) : w.SameTypes w := ⟨fun _ => rfl, fun _ => rfl⟩

theorem SameTypes.trans {u v w : World} (huv : u.SameTypes v) (hvw : v.SameTypes w) : u.SameTypes w :=
  ⟨fun r => (hvw.schemas r).trans (huv.schemas r), fun r => (hvw.types r).trans (huv.types r)⟩

theorem sameTypes_changeObject (w : World) (o : ObjectId) (g : Object → Object) :
    w.SameTypes (w.changeObject o g) := ⟨fun _ => rfl, fun _ => rfl⟩

theorem sameTypes_changeRegistry (w : World) (r : RegistryId) {g : Registry → Registry}
    (hschemas : ∀ x, (g x).schemas = x.schemas) (htypes : ∀ x, (g x).types = x.types) :
    w.SameTypes (w.changeRegistry r g) := by
  constructor
  · intro r'
    rw [registry_changeRegistry]
    split
    · rename_i h
      rw [hschemas, h.1]
    · rfl
  · intro r'
    rw [registry_changeRegistry]
    split
    · rename_i h
      rw [htypes, h.1]
    · rfl

theorem sameTypes_setId (w : World) (o : ObjectId) (id : String) : w.SameTypes (w.setId o id) := by
  refine (sameTypes_changeObject w o _).trans (sameTypes_changeRegistry _ _ ?_ ?_)
  · intro x
    unfold Registry.noteRenamed
    split <;> rfl
  · intro x
    unfold Registry.noteRenamed
    split <;> rfl

theorem sameTypes_writeField (w : World) (o : ObjectId) (name : String) (f : Field) :
    w.SameTypes (w.writeField o name f) :=
  (sameTypes_changeObject w o _).trans (sameTypes_changeRegistry _ _ (fun _ => rfl) fun _ => rfl)

end World

namespace Session

/-- One step of building objects. -/
inductive BuildStep
  | make (className id : String)
  | set (o : ObjectId) (name : String) (f : Field)

/-- Takes a step. -/
def BuildStep.run : BuildStep → SessionM Unit
  | .make className id => do
    let _ ← newObject className id
  | .set o name f => act (o.set name f)

/-- The workspace after some steps, of which any may fail. -/
def build (steps : List BuildStep) (s : Workspace) : Workspace :=
  steps.foldl (fun s step => (step.run s).2) s

/-- Objects were made and written to. -/
structure Building (base s : Workspace) : Prop where
  session : s.session = base.session
  store : s.world.store = base.world.store
  sameTypes : base.world.SameTypes s.world
  built : ∀ o : ObjectId, base.world.objects.size ≤ o.index → o.index < s.world.objects.size →
    base.registry.types.get? (s.world.object o).className = some (s.world.object o).type
      ∧ (s.world.object o).Built

variable {base s : Workspace}

theorem Building.refl (base : Workspace) : Building base base :=
  ⟨rfl, rfl, .refl _, fun _ hle hlt => absurd hlt (Nat.not_lt.mpr hle)⟩

theorem Building.registry_schemas (h : Building base s) :
    s.registry.schemas = base.registry.schemas := by
  unfold Workspace.registry
  rw [h.session]
  exact h.sameTypes.schemas _

theorem Building.registry_types (h : Building base s) : s.registry.types = base.registry.types := by
  unfold Workspace.registry
  rw [h.session]
  exact h.sameTypes.types _

/-- Changing an object in nothing but its id and fields. -/
theorem Building.change (h : Building base s) {o : ObjectId} {f : Object → Object} {w : World}
    (hstore : w.store = s.world.store) (hsame : s.world.SameTypes w)
    (hobjects : w.objects = (s.world.changeObject o f).objects)
    (htype : (f (s.world.object o)).type = (s.world.object o).type)
    (hbuilt : (s.world.object o).Built → (f (s.world.object o)).Built) :
    Building base { s with world := w } := by
  refine ⟨h.session, hstore.trans h.store, h.sameTypes.trans hsame, ?_⟩
  intro p hle hlt
  have hobject : w.object p = (s.world.changeObject o f).object p := by
    unfold World.object
    rw [hobjects]
  have hlt : p.index < s.world.objects.size := by
    have hsize : w.objects.size = s.world.objects.size := by rw [hobjects, World.changeObject]; simp
    exact hsize ▸ hlt
  obtain ⟨hknown, hold⟩ := h.built p hle hlt
  simp only [hobject]
  rw [World.object_changeObject]
  split
  · rename_i hp
    rw [hp.1] at hknown hold
    refine ⟨?_, hbuilt hold⟩
    rw [Object.className, htype]
    exact hknown
  · exact ⟨hknown, hold⟩

theorem Building.make (hconsistent : base.registry.Consistent) (h : Building base s)
    (className id : String) :
    Building base ((BuildStep.make className id).run s).2 := by
  have hask : ask (fun s => (s.world.registry s.session.registry).type className) s
      = (s.registry.type className, s) := ask_apply _ s
  rw [BuildStep.run, newObject]
  cases htype : s.registry.type className with
  | error e =>
    rw [htype] at hask
    rw [bind_of_error (bind_of_error hask)]
    exact h
  | ok type =>
    rw [htype] at hask
    have hmake : act (Action.newObject type id) s = (.ok ⟨s.world.objects.size⟩,
        { s with world := { s.world with objects := s.world.objects.push { type, id } } }) := rfl
    rw [bind_of_ok ((bind_of_ok hask).trans hmake), pure_apply]
    have hknown := Registry.type_eq_ok.mp htype
    rw [h.registry_types] at hknown
    obtain ⟨hname, -⟩ := hconsistent _ _ hknown
    refine ⟨h.session, h.store, ⟨h.sameTypes.schemas, h.sameTypes.types⟩, ?_⟩
    intro o hle hlt
    have hobject : World.object { s.world with objects := s.world.objects.push { type, id } } o
        = if o.index = s.world.objects.size then { type, id } else s.world.object o :=
      Arena.read_push ..
    simp only [hobject]
    split
    · refine ⟨?_, Object.built_new type id⟩
      rw [Object.className, hname]
      exact hknown
    · rename_i hne
      apply h.built o hle
      have hlt' : o.index < s.world.objects.size + 1 := by
        simpa using hlt
      omega

theorem Building.set (h : Building base s) (o : ObjectId) (name : String) (f : Field) :
    Building base ((BuildStep.set o name f).run s).2 := by
  rw [BuildStep.run, act_apply]
  rcases World.set_cases s.world o name f with hset | ⟨-, id, hset⟩ | ⟨hname, g, haccept, hset⟩
  · rw [hset]
    exact h
  · rw [hset]
    exact h.change rfl (World.sameTypes_setId _ _ _) rfl rfl fun hbuilt => hbuilt.setId id
  · rw [hset]
    refine h.change rfl (World.sameTypes_writeField _ _ _ _) rfl ?_ fun hbuilt =>
      hbuilt.write hname (World.accept_fits haccept)
    obtain ⟨touched, heq⟩ := Object.write_eq (s.world.object o) name g
    rw [heq]
    rfl

/-- What is built holds what its schema allows. -/
theorem building_build (hconsistent : base.registry.Consistent) (steps : List BuildStep) :
    Building base (build steps base) := by
  suffices h : ∀ s, Building base s → Building base (build steps s) from h base (.refl base)
  induction steps with
  | nil => exact fun s h => h
  | cons step steps ih =>
    intro s h
    apply ih _
    cases step with
    | make className id => exact h.make hconsistent className id
    | set o name f => exact h.set o name f

end Session

end RecordGraph
