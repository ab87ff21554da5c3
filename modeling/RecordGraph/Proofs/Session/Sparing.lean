import RecordGraph.Proofs.Session.Maintaining
import RecordGraph.Proofs.Session.Persisting
import RecordGraph.Proofs.Store.Atomicity
import RecordGraph.Proofs.Store.Finding

/-!
What an update does beside the rename of its object.  It writes fields, which changes neither the ids of
objects nor which records there are; it makes records, and it renames those of other objects.  All of
that leaves the record of the object where it is, unless another object claims the id of it.
-/

namespace RecordGraph

open RecordGraph.Computation Workspace

namespace World

/-- The registries are the same, and so are the objects but for their fields and the store but for the
fields of its records. -/
structure Still (v w : World) : Prop extends Maintains v w where
  shape : v.store.SameShape w.store

variable {u v w : World} {α : Type}

theorem Still.refl (w : World) : w.Still w := ⟨.refl w, .refl _⟩

theorem Still.trans (huv : u.Still v) (hvw : v.Still w) : u.Still w :=
  ⟨huv.toMaintains.trans hvw.toMaintains, huv.shape.trans hvw.shape⟩

end World

namespace Session

variable {α β : Type} {s t : Workspace} {o : ObjectId}

/-! ### Writing fields -/

/-- A computation that leaves objects and store as they are but for fields. -/
def Calm (m : SessionM α) : Prop := ∀ s : Workspace, s.world.Still (m s).2.world

theorem calm_iff {m : SessionM α} :
    Calm m ↔ ∀ s : Workspace, Preserves (fun t => s.world.Still t.world) m :=
  ⟨fun h _ t ht => ht.trans (h t), fun h s => h s s (.refl _)⟩

theorem Calm.bind {m : SessionM α} {f : α → SessionM β} (hm : Calm m) (hf : ∀ a, Calm (f a)) :
    Calm (m >>= f) :=
  calm_iff.mpr fun s => (calm_iff.mp hm s).bind fun a => calm_iff.mp (hf a) s

theorem Calm.of_reads {m : SessionM α} (hm : Reads m) : Calm m := fun s => by
  rw [hm s]
  exact .refl _

theorem calm_modify {g : Workspace → Workspace} (hg : ∀ s : Workspace, (g s).world = s.world) :
    Calm (modify g) := fun s => by
  rw [modify_apply, hg]
  exact .refl _

theorem calm_act {a : Action α} (hobjects : ∀ v : World, Preserves v.Maintains a)
    (hstore : ∀ w : World, w.store.SameShape (a w).2.store) : Calm (act a) :=
  fun s => ⟨hobjects s.world s.world (.refl _), hstore s.world⟩

theorem calm_setAttribute (p : ProxyId) (name : String) (v : Value) :
    Calm (act (p.setAttribute name v)) := by
  refine calm_act (fun _ => (World.Maintains.keptByProxies _).setAttribute p name v) fun w => ?_
  rw [ProxyId.setAttribute_apply]
  cases hwrite : w.attributeWrite p name v with
  | error e => exact .refl _
  | ok written =>
    obtain ⟨a, -, -, hplace⟩ := World.attributeWrite_eq_ok.mp hwrite
    exact Store.sameShape_put (Store.writePlace_eq_ok.mp hplace).1

theorem calm_setRelation (p : ProxyId) (name : String) (related : Related) :
    Calm (act (p.setRelation name related)) := by
  refine calm_act (fun _ => (World.Maintains.keptByProxies _).setRelation p name related) fun w => ?_
  rw [ProxyId.setRelation_apply]
  cases hwrite : w.relationWrite p name related with
  | error e => exact .refl _
  | ok place =>
    obtain ⟨r, -, -, hplace⟩ := World.relationWrite_eq_ok.mp hwrite
    exact Store.sameShape_put (Store.writePlace_eq_ok.mp hplace).1

theorem calm_proxyFor (r : RecordRef) : Calm (proxyFor r) := by
  refine (Calm.of_reads reads_get).bind fun s => ?_
  refine calm_act (fun _ => Action.preserves_newProxy _ _) fun w => ?_
  cases hschema : (w.registry s.session.registry).schema r.className with
  | error e =>
    rw [Action.newProxy_of_error hschema]
    exact .refl _
  | ok schema =>
    rw [Action.newProxy_of_ok hschema]
    exact .refl _

theorem calm_record (className id : String) : Calm (record className id) :=
  (Calm.of_reads (reads_askStore _)).bind fun _ => calm_proxyFor _

theorem calm_get (o : ObjectId) (name : String) : Calm (act (o.get name)) := by
  refine calm_act (fun _ => o.preserves_get name) fun w => ?_
  rw [ObjectId.get, bind_apply, Action.ask_apply]
  cases (w.object o).read name <;> exact .refl _

theorem calm_skipOrFail (policy : Policy) (o : ObjectId) (field : String) (e : Error) :
    Calm (skipOrFail policy o field e) := by
  refine (Calm.of_reads reads_get).bind fun s => ?_
  cases policy with
  | permissive => exact fun s => ⟨.of_eq rfl rfl, .refl _⟩
  | pedantic => exact .of_reads (reads_throw _)

theorem calm_writeFields (policy : Policy) (targets : Targets) (o : ObjectId) (p : ProxyId) :
    Calm (writeFields policy targets o p) := by
  refine calm_iff.mpr fun s => KeptByWriting.writeFields ?_ policy targets o
  exact ⟨fun o name => calm_iff.mp (calm_get o name) s,
    fun name v => calm_iff.mp (calm_setAttribute p name v) s,
    fun name related => calm_iff.mp (calm_setRelation p name related) s,
    fun policy o field e => calm_iff.mp (calm_skipOrFail policy o field e) s,
    fun className id => calm_iff.mp (calm_record className id) s⟩

theorem calm_writeObject (mode : Persistence) (targets : Targets) (o : ObjectId) :
    Calm (writeObject mode targets o) := by
  have hcache : Calm (modify fun s => s.cache o) := calm_modify fun _ => rfl
  refine (Calm.of_reads reads_get).bind fun s => ?_
  dsimp only
  split
  · exact .of_reads fun _ => rfl
  · split
    · refine (calm_writeFields _ _ _ _).bind fun _ => Calm.bind ?_ fun _ => hcache
      exact calm_act (fun _ => o.preserves_clearTouched) fun _ => .refl _
    · exact hcache

/-! ### Applying renames -/

/-- The workspace with another store. -/
def withStore (s : Workspace) (store : Store) : Workspace :=
  { s with world := { s.world with store } }

/-- The workspace in which an object waits for no rename. -/
def forget (s : Workspace) (o : ObjectId) (oldId : String) : Workspace :=
  { s with world := s.world.changeObject o fun object => { object with oldId := none } }.evict o oldId

/-- How applying the rename that an object waits for goes. -/
inductive Applies (s : Workspace) (o : ObjectId) : Except Error Unit × Workspace → Prop
  | unneeded (settled : (s.world.object o).oldId = none) : Applies s o (.ok (), s)
  | dropped {oldId : String} (pending : (s.world.object o).oldId = some oldId)
      (moot : oldId = (s.world.object o).id
        ∨ s.world.store.testRecord (s.world.object o).className oldId = false) :
      Applies s o (.ok (), forget s o oldId)
  | applied {oldId : String} {record renamed : RecordRef} {store : Store}
      (pending : (s.world.object o).oldId = some oldId) (differs : oldId ≠ (s.world.object o).id)
      (found : s.world.store.find (s.world.object o).className oldId = some record)
      (run : Store.renameRecord record (s.world.object o).id s.world.store = (.ok renamed, store)) :
      Applies s o (.ok (), forget (withStore s store) o oldId)
  | rejected {oldId : String} {record : RecordRef} {e : Error}
      (pending : (s.world.object o).oldId = some oldId) (differs : oldId ≠ (s.world.object o).id)
      (found : s.world.store.find (s.world.object o).className oldId = some record)
      (run : Store.renameRecord record (s.world.object o).id s.world.store
        = (.error e, s.world.store)) :
      Applies s o (.error e, s)

theorem onStore_of_run {m : StoreM α} {x : Except Error α} {store : Store}
    (h : m s.world.store = (x, store)) : onStore m s = (x, withStore s store) := by
  rw [onStore, act_apply, Action.onStore_apply, h]
  rfl

theorem applies_applyRename (s : Workspace) (o : ObjectId) : Applies s o (applyRename o s) := by
  rw [applyRename, bind_of_ok (get_apply s)]
  cases hpending : (s.world.object o).oldId with
  | none => exact .unneeded hpending
  | some oldId =>
    dsimp only
    split
    · rename_i hstored
      obtain ⟨hdiffers, htest⟩ := Bool.and_eq_true_iff.mp hstored
      obtain ⟨record, hfind⟩ := Option.isSome_iff_exists.mp htest
      have hask : askStore (fun store => store.getRecord (s.world.object o).className oldId) s
          = (.ok record, s) := by
        rw [askStore_apply, Store.getRecord_eq_ok.mpr hfind]
      rw [bind_of_ok hask]
      rcases hrun : Store.renameRecord record (s.world.object o).id s.world.store with ⟨e | renamed, store⟩
      · obtain rfl := Store.atomic_renameRecord _ _ _ _ _ hrun
        rw [bind_of_error (onStore_of_run hrun)]
        exact .rejected hpending (bne_iff_ne.mp hdiffers) hfind hrun
      · rw [bind_of_ok (onStore_of_run hrun)]
        exact .applied hpending (bne_iff_ne.mp hdiffers) hfind hrun
    · rename_i hmoot
      refine .dropped hpending ?_
      rw [Bool.not_eq_true, Bool.and_eq_false_iff, bne_eq_false_iff_eq] at hmoot
      exact hmoot

/-- What applying a rename keeps: it changes nothing, drops the rename, or renames a record as well. -/
theorem preserves_applyRename {P : Workspace → Prop} {x : ObjectId}
    (hforget : ∀ t oldId, (t.world.object x).oldId = some oldId → P t → P (forget t x oldId))
    (happly : ∀ t oldId record renamed store, (t.world.object x).oldId = some oldId →
      oldId ≠ (t.world.object x).id →
      t.world.store.find (t.world.object x).className oldId = some record →
      Store.renameRecord record (t.world.object x).id t.world.store = (.ok renamed, store) →
      P t → P (forget (withStore t store) x oldId)) :
    Preserves P (applyRename x) := by
  intro t h
  have happlies := applies_applyRename t x
  generalize applyRename x t = outcome at happlies
  cases happlies with
  | unneeded => exact h
  | rejected => exact h
  | dropped hpending => exact hforget t _ hpending h
  | applied hpending hdiffers hfind hrun => exact happly t _ _ _ _ hpending hdiffers hfind hrun h

theorem object_forget (s : Workspace) (o x : ObjectId) (oldId : String) :
    (forget s o oldId).world.object x
      = if x = o then { s.world.object o with oldId := none } else s.world.object x := by
  change (s.world.changeObject o fun object => { object with oldId := none }).object x = _
  rw [World.object_changeObject]
  by_cases hx : x = o
  · subst hx
    rw [if_pos rfl]
    by_cases hbound : x.index < s.world.objects.size
    · rw [if_pos ⟨rfl, hbound⟩]
    · rw [if_neg fun h => hbound h.2, World.object_of_missing hbound]
      rfl
  · rw [if_neg fun h => hx h.1, if_neg hx]

/-- Objects keep their types and ids. -/
theorem header_forget (s : Workspace) (o x : ObjectId) (oldId : String) :
    ((forget s o oldId).world.object x).type = (s.world.object x).type
      ∧ ((forget s o oldId).world.object x).id = (s.world.object x).id
      ∧ (((forget s o oldId).world.object x).oldId = none
        ∨ ((forget s o oldId).world.object x).oldId = (s.world.object x).oldId) := by
  rw [object_forget]
  split
  · rename_i hx
    rw [hx]
    exact ⟨rfl, rfl, Or.inl rfl⟩
  · exact ⟨rfl, rfl, Or.inr rfl⟩

/-! ### Renames of other objects -/

/-- Whether an object waits for a rename that an update would have to apply. -/
def waits (s : Workspace) (x : ObjectId) : Bool :=
  match (s.world.object x).oldId with
  | some oldId => oldId != (s.world.object x).id
  | none => false

/-- An object waits to be renamed from the id of another one, in the line of inheritance above its
class. -/
def Claims (s : Workspace) (x o : ObjectId) : Prop :=
  s.world.store.hierarchy.isA (s.world.object o).className (s.world.object x).className = true
    ∧ (s.world.object x).oldId = some (s.world.object o).id
    ∧ (s.world.object x).id ≠ (s.world.object o).id

instance (s : Workspace) (x o : ObjectId) : Decidable (Claims s x o) :=
  inferInstanceAs (Decidable (_ ∧ _ ∧ _))

/-- What an update does for other objects: the record of an object stays where it is, and every record
that is renamed is that of an object which waited for it and does so no longer. -/
structure Spares (s : Workspace) (o : ObjectId) (place : String) (others : List ObjectId)
    (t : Workspace) : Prop where
  type : ∀ x, (t.world.object x).type = (s.world.object x).type
  id : ∀ x, (t.world.object x).id = (s.world.object x).id
  oldId : ∀ x, (t.world.object x).oldId = none
    ∨ (t.world.object x).oldId = (s.world.object x).oldId
  scope : s.world.store.SameScope t.world.store
  found : t.world.store.FoundIn (s.world.object o).record place
  lower : s.world.store.renames ≤ t.world.store.renames
  upper : t.world.store.renames + others.countP (waits t)
    ≤ s.world.store.renames + others.countP (waits s)

variable {place : String} {others : List ObjectId} {x : ObjectId}

theorem Spares.refl (h : s.world.store.FoundIn (s.world.object o).record place) :
    Spares s o place others s :=
  ⟨fun _ => rfl, fun _ => rfl, fun _ => Or.inr rfl, .refl _, h, Nat.le_refl _, Nat.le_refl _⟩

theorem Spares.still {u : Workspace} (h : Spares s o place others t) (hstill : t.world.Still u.world) :
    Spares s o place others u where
  type x := (hstill.type x).trans (h.type x)
  id x := (hstill.id x).trans (h.id x)
  oldId x := by
    rw [hstill.oldId]
    exact h.oldId x
  scope := h.scope.trans hstill.shape.scope
  found := h.found.sameShape hstill.shape
  lower := by
    rw [hstill.shape.renames]
    exact h.lower
  upper := by
    have hwaits : waits u = waits t := funext fun x => by
      unfold waits
      rw [hstill.oldId, hstill.id]
    rw [hstill.shape.renames, hwaits]
    exact h.upper

theorem Calm.spares {m : SessionM α} (hm : Calm m) : Preserves (Spares s o place others) m :=
  fun t ht => ht.still (hm t)

theorem waits_forget (s : Workspace) (x y : ObjectId) (oldId : String) :
    waits (forget s x oldId) y = (decide (y ≠ x) && waits s y) := by
  unfold waits
  rw [object_forget]
  by_cases hy : y = x <;> simp [hy]

theorem countP_forget_le (ys : List ObjectId) (oldId : String) :
    ys.countP (waits (forget s x oldId)) ≤ ys.countP (waits s) := by
  refine List.countP_mono_left fun y _ hy => ?_
  rw [waits_forget, Bool.and_eq_true] at hy
  exact hy.2

/-- An object that waits for no rename any more changes nothing that is stored. -/
theorem Spares.forget (h : Spares s o place others t) (x : ObjectId) (oldId : String) :
    Spares s o place others (forget t x oldId) where
  type y := (header_forget t x y oldId).1.trans (h.type y)
  id y := (header_forget t x y oldId).2.1.trans (h.id y)
  oldId y := (header_forget t x y oldId).2.2.elim Or.inl fun hsame => hsame ▸ h.oldId y
  scope := h.scope
  found := h.found
  lower := h.lower
  upper := Nat.le_trans (Nat.add_le_add_left (countP_forget_le others oldId) _) h.upper

/-- An object that no longer waits pays for the rename of its record. -/
theorem countP_waits_forget (hx : x ∈ others) (hwaits : waits s x = true) (oldId : String) :
    others.countP (waits (forget s x oldId)) + 1 ≤ others.countP (waits s) := by
  induction others with
  | nil => cases hx
  | cons y ys ih =>
    rw [List.countP_cons, List.countP_cons]
    rcases List.mem_cons.mp hx with rfl | hx
    · have hdone : waits (forget s x oldId) x = false := by simp [waits_forget]
      rw [hdone, hwaits]
      exact Nat.succ_le_succ (countP_forget_le ys oldId)
    · have hhead : (if waits (forget s x oldId) y = true then 1 else 0)
          ≤ if waits s y = true then 1 else 0 := by
        simpa only [List.countP_cons, List.countP_nil, Nat.zero_add] using
          countP_forget_le (s := s) (x := x) [y] oldId
      have htail := ih hx
      omega

theorem Spares.className (h : Spares s o place others t) (x : ObjectId) :
    (t.world.object x).className = (s.world.object x).className :=
  congrArg ClassType.name (h.type x)

/-- Applying the rename of another object. -/
theorem spares_applyRename (hx : x ∈ others) (hfree : ¬ Claims s x o) :
    Preserves (Spares s o place others) (applyRename x) := by
  refine preserves_applyRename (fun t oldId _ h => h.forget x oldId) ?_
  intro t oldId record renamed store hpending hdiffers hfind hrun h
  obtain ⟨-, other, hplace, -, hconflict, rfl⟩ := Store.renameRecord_run hrun
  obtain ⟨-, hid, hisA, hclass⟩ := Store.find_eq_some hfind
  have hpending' : (s.world.object x).oldId = some oldId := by
    rcases h.oldId x with hnone | hsame
    · rw [hnone] at hpending
      cases hpending
    · exact hsame.symm.trans hpending
  -- the renamed record is another one, since its object would claim the id otherwise
  have hne : (s.world.object o).record ≠ record := by
    rintro rfl
    refine hfree ⟨?_, ?_, ?_⟩
    · rw [← h.className x, ← h.scope.hierarchy]
      exact hisA
    · exact hpending'.trans (congrArg some hid.symm)
    · rw [← h.id x]
      exact fun heq => hdiffers (hid.symm.trans heq.symm)
  have hmoved : Spares s o place others (forget t x oldId) := h.forget x oldId
  refine ⟨hmoved.type, hmoved.id, hmoved.oldId, ?_, ?_, ?_, ?_⟩
  · exact h.scope.trans (Store.sameScope_withRenamed ..)
  · exact h.found.withRenamed_other hplace hclass hconflict hne
  · exact Nat.le_succ_of_le h.lower
  · have hwaits : waits t x = true := by
      unfold waits
      rw [hpending]
      exact bne_iff_ne.mpr hdiffers
    have hpaid := countP_waits_forget hx hwaits oldId
    have hupper := h.upper
    change t.world.store.renames + 1 + others.countP (waits (Session.forget t x oldId)) ≤ _
    omega

/-- Making a record. -/
theorem spares_createRecord (className id : String) (place' : Option String) :
    Preserves (Spares s o place others) (createRecord className id place') := by
  refine (reads_database _).preserves.bind fun other => Preserves.bind ?_ fun _ =>
    (calm_proxyFor _).spares
  intro t h
  rcases hrun : Store.createRecord other className id t.world.store with ⟨e | r, store⟩
  · obtain rfl := Store.atomic_createRecord _ _ _ _ _ _ hrun
    rw [onStore_of_run hrun]
    exact h
  · obtain ⟨-, rfl, hclass, hconflict, -⟩ := Store.createRecord_run hrun
    rw [onStore_of_run hrun]
    refine ⟨h.type, h.id, h.oldId, ?_, ?_, h.lower, h.upper⟩
    · exact h.scope.trans (Store.sameScope_withRecord ..)
    · exact h.found.withRecord hclass hconflict

theorem spares_targetFor (x : ObjectId) : Preserves (Spares s o place others) (targetFor x) := by
  refine reads_get.preserves.bind fun t => ?_
  dsimp only
  split
  · exact (calm_record _ _).spares.bind fun _ => preserves_pure _
  · exact (spares_createRecord _ _ _).bind fun _ => preserves_pure _

/-- Finding or making the record of an object, once its rename was applied. -/
def obtainTarget (targets : Targets) (x : ObjectId) : SessionM Targets := do
  let name := (← get).world.nameOf x
  if targets.contains name then pure targets
  else do pure (targets.insert name (← targetFor x))

theorem prepare_eq (targets : Targets) (x : ObjectId) :
    prepare targets x = applyRename x >>= fun _ => obtainTarget targets x := rfl

theorem spares_obtainTarget (targets : Targets) (x : ObjectId) :
    Preserves (Spares s o place others) (obtainTarget targets x) := by
  refine reads_get.preserves.bind fun t => ?_
  dsimp only
  split
  · exact preserves_pure _
  · exact (spares_targetFor x).bind fun _ => preserves_pure _

/-! ### The rest of an update -/

/-- What an update does after it has applied the rename of its object. -/
def persistRest (mode : Persistence) (o : ObjectId) (others : List ObjectId) : SessionM ProxyId := do
  let targets ← others.foldlM prepare (← obtainTarget .empty o)
  (o :: others).forM (writeObject mode targets)
  rootProxy targets o

theorem spares_persistRest (mode : Persistence) (hfree : ∀ x ∈ others, ¬ Claims s x o) :
    Preserves (Spares s o place others) (persistRest mode o others) := by
  refine (spares_obtainTarget .empty o).bind fun targets => ?_
  refine (Preserves.foldlM (fun targets x hx => ?_) targets).bind fun targets => ?_
  · exact (spares_applyRename hx (hfree x hx)).bind fun _ => spares_obtainTarget targets x
  · exact (Preserves.forM fun x _ => (calm_writeObject mode targets x).spares).bind fun _ =>
      (reads_rootProxy targets o).preserves

end Session

end RecordGraph
