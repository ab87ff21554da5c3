import RecordGraph.Proofs.Object.Reading
import RecordGraph.Proofs.Proxy.Writing
import RecordGraph.Proofs.Session.Growth
import RecordGraph.Session.Persist

/-!
What reading records and writing objects leaves alone, whether it succeeds or fails: the registries,
the session with its cache, and which objects there are, with their types and ids.  Fields of objects,
proxies, reports and the store may change.
-/

namespace RecordGraph

open RecordGraph.Computation

namespace World

/-- The registries are the same, and so are the objects but for what they hold in their fields. -/
structure Maintains (v w : World) : Prop where
  registries : w.registries = v.registries
  objects : w.objects.size = v.objects.size
  type : ∀ o, (w.object o).type = (v.object o).type
  id : ∀ o, (w.object o).id = (v.object o).id
  oldId : ∀ o, (w.object o).oldId = (v.object o).oldId

variable {u v w : World}

theorem object_of_missing {o : ObjectId} (h : ¬ o.index < w.objects.size) : w.object o = default := by
  rw [object, Arena.read, Array.getD_eq_getD_getElem?, Array.getElem?_eq_none (Nat.le_of_not_lt h)]
  rfl

namespace Maintains

theorem refl (w : World) : w.Maintains w := ⟨rfl, rfl, fun _ => rfl, fun _ => rfl, fun _ => rfl⟩

theorem trans (huv : u.Maintains v) (hvw : v.Maintains w) : u.Maintains w where
  registries := hvw.registries.trans huv.registries
  objects := hvw.objects.trans huv.objects
  type o := (hvw.type o).trans (huv.type o)
  id o := (hvw.id o).trans (huv.id o)
  oldId o := (hvw.oldId o).trans (huv.oldId o)

theorem of_eq (hregistries : w.registries = v.registries) (hobjects : w.objects = v.objects) :
    v.Maintains w := by
  have hobject : ∀ o, w.object o = v.object o := fun o => by
    unfold object
    rw [hobjects]
  exact ⟨hregistries, by rw [hobjects], fun o => by rw [hobject], fun o => by rw [hobject],
    fun o => by rw [hobject]⟩

/-- Changing what an object holds. -/
theorem changeObject (w : World) (o : ObjectId) {f : Object → Object}
    (htype : (f (w.object o)).type = (w.object o).type) (hid : (f (w.object o)).id = (w.object o).id)
    (holdId : (f (w.object o)).oldId = (w.object o).oldId) : w.Maintains (w.changeObject o f) := by
  have hobject : ∀ p, (w.changeObject o f).object p = f (w.object o) ∧ p = o
      ∨ (w.changeObject o f).object p = w.object p := fun p => by
    rw [object_changeObject]
    split
    · rename_i hp
      exact Or.inl ⟨rfl, hp.1⟩
    · exact Or.inr rfl
  refine ⟨rfl, by simp [World.changeObject], fun p => ?_, fun p => ?_, fun p => ?_⟩ <;>
    rcases hobject p with ⟨heq, rfl⟩ | heq <;> rw [heq] <;> assumption

end Maintains

end World

/-! ### Actions -/

section Actions

variable {α : Type} {v : World}

namespace Action

theorem preserves_onStore (m : StoreM α) : Preserves v.Maintains (Action.onStore m) :=
  fun _ hw => hw.trans (.of_eq rfl rfl)

theorem preserves_newProxy (r : RegistryId) (record : RecordRef) :
    Preserves v.Maintains (Action.newProxy r record) := by
  intro w hw
  cases hschema : (w.registry r).schema record.className with
  | error e => rwa [Action.newProxy_of_error hschema]
  | ok schema =>
    rw [Action.newProxy_of_ok hschema]
    exact hw.trans (.of_eq rfl rfl)

end Action

theorem World.Maintains.keptByProxies (v : World) : KeptByProxies v.Maintains where
  newProxy := Action.preserves_newProxy
  changeProxy _ _ _ _ hw := hw.trans (.of_eq rfl rfl)
  warn _ _ hw := hw.trans (.of_eq rfl rfl)
  onStore := Action.preserves_onStore

namespace ObjectId

/-- Reading a field keeps what was read in the fields of the object. -/
theorem preserves_get (o : ObjectId) (name : String) : Preserves v.Maintains (o.get name) := by
  intro w hw
  rw [ObjectId.get, bind_apply, Action.ask_apply]
  cases hread : (w.object o).read name with
  | error e => exact hw
  | ok x =>
    obtain ⟨fields, heq⟩ := Object.exists_fields_of_read hread
    exact hw.trans (.changeObject w o (by rw [heq]) (by rw [heq]) (by rw [heq]))

theorem preserves_clearTouched (o : ObjectId) : Preserves v.Maintains o.clearTouched :=
  preserves_modify fun w hw => hw.trans (.changeObject w o rfl rfl rfl)

end ObjectId

end Actions

/-! ### Sessions -/

namespace Workspace

/-- The session with its cache is the same, and the world is but for fields, proxies, reports and the
store. -/
structure Maintains (s t : Workspace) : Prop where
  session : t.session = s.session
  world : s.world.Maintains t.world

variable {s t u : Workspace}

namespace Maintains

theorem refl (s : Workspace) : s.Maintains s := ⟨rfl, .refl _⟩

theorem trans (hst : s.Maintains t) (htu : t.Maintains u) : s.Maintains u :=
  ⟨htu.session.trans hst.session, hst.world.trans htu.world⟩

theorem cached? (h : s.Maintains t) : t.cached? = s.cached? := by
  unfold Workspace.cached?
  rw [h.session]

theorem registry (h : s.Maintains t) : t.registry = s.registry := by
  unfold Workspace.registry World.registry
  rw [h.session, h.world.registries]

end Maintains

end Workspace

namespace Session

variable {α : Type} {s : Workspace}

theorem preserves_act {a : Action α} (ha : Preserves s.world.Maintains a) :
    Preserves s.Maintains (act a) :=
  fun t ht => ⟨ht.session, ha t.world ht.world⟩

theorem reads_ask (f : Workspace → Except Error α) : Reads (Session.ask f) := by
  intro t
  rw [ask_apply]

theorem reads_askStore (f : Store → Except Error α) : Reads (askStore f) := reads_ask _

theorem reads_database (name : Option String) : Reads (Session.database name) := by
  refine reads_get.bind fun t => ?_
  split
  · exact fun _ => rfl
  · exact reads_throw _

theorem preserves_onStore (m : StoreM α) : Preserves s.Maintains (onStore m) :=
  preserves_act (Action.preserves_onStore m)

theorem preserves_proxyFor (r : RecordRef) : Preserves s.Maintains (proxyFor r) :=
  reads_get.preserves.bind fun _ => preserves_act (Action.preserves_newProxy _ _)

theorem preserves_record (className id : String) : Preserves s.Maintains (record className id) :=
  (reads_askStore _).preserves.bind fun _ => preserves_proxyFor _

theorem preserves_records (className : String) : Preserves s.Maintains (records className) :=
  (reads_askStore _).preserves.bind fun _ => .mapM fun _ _ => preserves_proxyFor _

theorem preserves_createRecord (className id : String) (place : Option String) :
    Preserves s.Maintains (createRecord className id place) :=
  (reads_database _).preserves.bind fun _ => (preserves_onStore _).bind fun _ => preserves_proxyFor _

/-- Loading a field. -/
theorem preserves_loadField (o : ObjectId) (name : String) (f : Field) :
    Preserves s.Maintains (loadField o name f) :=
  preserves_modify fun t ht =>
    ht.trans ⟨rfl, .changeObject t.world o rfl rfl rfl⟩

/-! ### Writing objects -/

theorem preserves_skipOrFail (policy : Policy) (o : ObjectId) (field : String) (e : Error) :
    Preserves s.Maintains (skipOrFail policy o field e) := by
  refine reads_get.preserves.bind fun t => ?_
  cases policy with
  | permissive => exact preserves_modify fun t ht => ht.trans ⟨rfl, .of_eq rfl rfl⟩
  | pedantic => exact (reads_throw _).preserves

/-- What the parts of writing the fields of an object through a proxy keep. -/
structure KeptByWriting (P : Workspace → Prop) (p : ProxyId) : Prop where
  get : ∀ (o : ObjectId) name, Preserves P (act (o.get name))
  setAttribute : ∀ name v, Preserves P (act (p.setAttribute name v))
  setRelation : ∀ name related, Preserves P (act (p.setRelation name related))
  skip : ∀ policy o field e, Preserves P (skipOrFail policy o field e)
  record : ∀ className id, Preserves P (Session.record className id)

namespace KeptByWriting

variable {P : Workspace → Prop} {p : ProxyId} (h : KeptByWriting P p)

include h

theorem writeAttribute (policy : Policy) (o : ObjectId) (name : String) :
    Preserves P (writeAttribute policy o p name) := by
  refine (h.get o name).bind fun f => ?_
  split
  · exact ((h.setAttribute _ _).bind fun _ => preserves_pure _).tryCatch fun e => h.skip _ _ _ e
  · exact preserves_pure _

theorem relatedProxy (targets : Targets) (o : ObjectId) : Preserves P (relatedProxy targets o) := by
  refine reads_get.preserves.bind fun t => ?_
  dsimp only
  split
  · exact preserves_pure _
  · exact h.record _ _

theorem writeRelation (policy : Policy) (targets : Targets) (o : ObjectId) (r : Relation) :
    Preserves P (writeRelation policy targets o p r) :=
  (h.get o _).bind fun _ => (Preserves.mapM fun _ _ => h.relatedProxy targets _).bind fun _ =>
    (h.setRelation _ _).tryCatch fun e => h.skip _ _ _ e

theorem writeFields (policy : Policy) (targets : Targets) (o : ObjectId) :
    Preserves P (writeFields policy targets o p) :=
  reads_get.preserves.bind fun _ =>
    (Preserves.forM fun _ _ => h.writeAttribute policy o _).bind fun _ =>
      .forM fun _ _ => h.writeRelation policy targets o _

end KeptByWriting

theorem keptByWriting_maintains (s : Workspace) (p : ProxyId) : KeptByWriting s.Maintains p where
  get o name := preserves_act (o.preserves_get name)
  setAttribute _ _ := preserves_act ((World.Maintains.keptByProxies _).setAttribute p _ _)
  setRelation _ _ := preserves_act ((World.Maintains.keptByProxies _).setRelation p _ _)
  skip := preserves_skipOrFail
  record := preserves_record

theorem preserves_writeFields (policy : Policy) (targets : Targets) (o : ObjectId) (p : ProxyId) :
    Preserves s.Maintains (writeFields policy targets o p) :=
  (keptByWriting_maintains s p).writeFields policy targets o

theorem preserves_targetFor (o : ObjectId) : Preserves s.Maintains (targetFor o) := by
  refine reads_get.preserves.bind fun t => ?_
  dsimp only
  split
  · exact (preserves_record _ _).bind fun _ => preserves_pure _
  · exact (preserves_createRecord _ _ _).bind fun _ => preserves_pure _

end Session

end RecordGraph
