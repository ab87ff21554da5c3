import RecordGraph.Proofs.Session.Storing
import RecordGraph.Proofs.Store.Creation

/-!
Preparing the records of objects that are persisted.  Every object gets a record, made where there is
none.  As long as no object waits to be renamed, whatever was visible before stays where it was with
what is stored for it.
-/

namespace RecordGraph

open RecordGraph.Computation

namespace Workspace

variable {s t u : Workspace} {o : ObjectId}

/-- One workspace comes from another by renaming and making records. -/
structure Prepares (s t : Workspace) : Prop extends Steady s t where
  warnings : t.world.warnings = s.world.warnings
  scope : s.world.store.SameScope t.world.store

namespace Prepares

theorem refl (s : Workspace) : s.Prepares s := ⟨.refl s, rfl, .refl _⟩

theorem trans (hst : s.Prepares t) (htu : t.Prepares u) : s.Prepares u :=
  ⟨hst.toSteady.trans htu.toSteady, htu.warnings.trans hst.warnings, hst.scope.trans htu.scope⟩

end Prepares

theorem Looks.prepares (h : s.Looks t) : s.Prepares t where
  toSteady := h.steady
  warnings := h.warnings
  scope := by rw [h.world.store]; exact .refl _

/-- One workspace comes from another by making records. -/
structure Adds (s t : Workspace) : Prop extends Prepares s t where
  sameSession : t.session = s.session
  sameObjects : t.world.objects = s.world.objects
  location : ∀ r, s.world.store.Visible r → t.world.store.location r = s.world.store.location r
  stored : ∀ r, s.world.store.Visible r → ∀ place name multi,
    t.world.store.stored place r name multi = s.world.store.stored place r name multi

namespace Adds

theorem visible (h : s.Adds t) {r : RecordRef} (hr : s.world.store.Visible r) :
    t.world.store.Visible r := by
  unfold Store.Visible
  rw [h.location r hr]
  exact hr

theorem object (h : s.Adds t) (o : ObjectId) : t.world.object o = s.world.object o := by
  unfold World.object
  rw [h.sameObjects]

theorem refl (s : Workspace) : s.Adds s :=
  ⟨.refl s, rfl, rfl, fun _ _ => rfl, fun _ _ _ _ _ => rfl⟩

theorem trans (hst : s.Adds t) (htu : t.Adds u) : s.Adds u where
  toPrepares := hst.toPrepares.trans htu.toPrepares
  sameSession := htu.sameSession.trans hst.sameSession
  sameObjects := htu.sameObjects.trans hst.sameObjects
  location r hr := (htu.location r (hst.visible hr)).trans (hst.location r hr)
  stored r hr place name multi :=
    (htu.stored r (hst.visible hr) place name multi).trans (hst.stored r hr place name multi)

end Adds

theorem Looks.adds (h : s.Looks t) : s.Adds t where
  toPrepares := h.prepares
  sameSession := h.session
  sameObjects := h.world.objects
  location _ _ := by rw [h.world.store]
  stored _ _ _ _ _ := by rw [h.world.store]

/-- Making a record that nothing visible conflicts with. -/
theorem adds_withRecord {place : String} {r : RecordRef} (hnew : ¬ s.world.store.Visible r) :
    s.Adds { s with world := { s.world with store := s.world.store.withRecord place r } } where
  toSteady := ⟨rfl, rfl, rfl, Nat.le_refl _, fun _ _ => rfl, fun _ _ => rfl, fun _ _ => rfl,
    fun _ => .refl _⟩
  warnings := rfl
  scope := Store.sameScope_withRecord _ _ _
  sameSession := rfl
  sameObjects := rfl
  location r' hr' := Store.location_withRecord fun (heq : r' = r) => hnew (heq ▸ hr')
  stored r' hr' _ _ multi := Store.stored_withRecord (fun (heq : r' = r) => hnew (heq ▸ hr')) multi

end Workspace

namespace Session

open Workspace

variable {s t : Workspace} {o : ObjectId} {targets targets' : Targets} {target : Target}

/-! ### Renaming -/

theorem onStore_eq_ok {α : Type} {m : StoreM α} {x : α} (h : onStore m s = (.ok x, t)) :
    m s.world.store = (.ok x, t.world.store)
      ∧ t = { s with world := { s.world with store := t.world.store } } := by
  rw [onStore, act_apply, Action.onStore_apply] at h
  obtain ⟨hresult, rfl⟩ := Prod.mk.inj h
  exact ⟨Prod.ext hresult rfl, rfl⟩

/-- Renaming a record that a class and id lead to. -/
theorem onStore_renameRecord_run {className oldId newId : String} {record r : RecordRef}
    (hfind : s.world.store.find className oldId = some record)
    (hrun : onStore (Store.renameRecord record newId) s = (.ok r, t)) :
    s.Prepares t
      ∧ (className ∈ s.world.store.classes → ¬ s.world.store.Visible ⟨className, newId⟩) := by
  obtain ⟨hstore, heq⟩ := onStore_eq_ok hrun
  obtain ⟨-, place, -, -, hconflict, hrenamed⟩ := Store.renameRecord_run hstore
  have hscope := Store.sameScope_withRenamed s.world.store place record ⟨record.className, newId⟩
  rw [← hrenamed] at hscope
  constructor
  · rw [heq]
    exact ⟨⟨rfl, rfl, rfl, Nat.le_refl _, fun _ _ => rfl, fun _ _ => rfl, fun _ _ => rfl,
      fun _ => .refl _⟩, rfl, hscope⟩
  · intro hclass hvisible
    obtain ⟨-, -, hisA, -⟩ := Store.find_eq_some hfind
    have hsome : (s.world.store.conflict record.className newId).isSome = true :=
      Store.conflict_isSome_iff.mpr ⟨className, hclass, Or.inr hisA, hvisible⟩
    simp [hconflict] at hsome

/-- Dropping the note of a rename changes nothing that is stored. -/
theorem forgetRename_run {oldId : String} {done : Unit}
    (hrun : (do
      act o.clearRename
      modify fun s => s.evict o oldId : SessionM Unit) s = (.ok done, t)) :
    s.Prepares t ∧ t.world.store = s.world.store := by
  obtain ⟨_, s₁, hclear, hevict⟩ := bind_eq_ok.mp hrun
  rw [ObjectId.clearRename, act_apply, modify_apply] at hclear
  obtain ⟨-, rfl⟩ := Prod.mk.inj hclear
  rw [modify_apply] at hevict
  obtain ⟨-, rfl⟩ := Prod.mk.inj hevict
  have hcleared := writes_changeObject (s := s) (fun _ _ => False) (fun _ _ => False) (o := o)
    (f := fun object => { object with oldId := none }) (Object.alike_of_eq rfl rfl rfl)
  exact ⟨⟨hcleared.toSteady.trans ⟨rfl, rfl, rfl, Nat.le_refl _, fun _ _ => rfl, fun _ _ => rfl,
    fun _ _ => rfl, fun _ => .refl _⟩, rfl, .refl _⟩, rfl⟩

/-- Applying the rename that an object waits for, if any.  Nothing is renamed to a visible record. -/
theorem applyRename_run {done : Unit} (hrun : applyRename o s = (.ok done, t)) :
    s.Prepares t ∧ ((s.world.object o).oldId = none → t = s)
      ∧ ((s.world.object o).className ∈ s.world.store.classes →
        s.world.store.Visible (s.world.object o).record → t.world.store = s.world.store) := by
  rw [applyRename, bind_of_ok (get_apply s)] at hrun
  cases hold : (s.world.object o).oldId with
  | none =>
    simp only [hold] at hrun
    obtain ⟨-, rfl⟩ := Prod.mk.inj hrun
    exact ⟨.refl s, fun _ => rfl, fun _ _ => rfl⟩
  | some oldId =>
    simp only [hold] at hrun
    split at hrun
    · obtain ⟨record, s₁, hask, hrun⟩ := bind_eq_ok.mp hrun
      obtain ⟨hfound, rfl⟩ := askStore_run hask
      obtain ⟨r, s₂, hrename, hforget⟩ := bind_eq_ok.mp hrun
      obtain ⟨hrenamed, hclash⟩ :=
        onStore_renameRecord_run (Store.getRecord_eq_ok.mp hfound) hrename
      exact ⟨hrenamed.trans (forgetRename_run hforget).1, by simp,
        fun hclass hvisible => absurd hvisible (hclash hclass)⟩
    · obtain ⟨hprepares, hstore⟩ := forgetRename_run hrun
      exact ⟨hprepares, by simp, fun _ _ => hstore⟩

/-! ### Records of objects -/

/-- A prepared record is seen through a proxy of the session. -/
structure Targeted (s t : Workspace) (target : Target) : Prop where
  bound : target.proxy.index < t.world.proxies.size
  schema : s.registry.schema (t.world.recordOf target.proxy).className
    = .ok (t.world.proxy target.proxy).schema
  registry : (t.world.proxy target.proxy).registry = s.session.registry

/-- How an object comes by its record. -/
inductive Obtains (s t : Workspace) (o : ObjectId) (target : Target) : Prop
  | found (created : target.created = false) (store : t.world.store = s.world.store)
      (find : s.world.store.find (s.world.object o).className (s.world.object o).id
        = some (t.world.recordOf target.proxy))
  | made {place : String} {d : Database} (created : target.created = true)
      (record : t.world.recordOf target.proxy = (s.world.object o).record)
      (active : s.session.active = some place)
      (database : s.world.store.databases.get? place = some d)
      (declared : (s.world.object o).className ∈ s.world.store.classes)
      (free : s.world.store.conflict (s.world.object o).className (s.world.object o).id = none)
      (store : t.world.store = s.world.store.withRecord place (s.world.object o).record)

/-- Finding or making the record of an object. -/
theorem targetFor_run (hrun : targetFor o s = (.ok target, t)) :
    s.Adds t ∧ Targeted s t target ∧ Obtains s t o target := by
  rw [targetFor, bind_of_ok (get_apply s)] at hrun
  cases htest : s.world.store.testRecord (s.world.object o).className (s.world.object o).id with
  | true =>
    simp only [htest, if_true] at hrun
    obtain ⟨p, s₁, hrecord, hpure⟩ := bind_eq_ok.mp hrun
    obtain ⟨heq, rfl⟩ := Prod.mk.inj hpure
    cases heq
    obtain ⟨hlooks, ⟨hschema, hregistry⟩, hfind, hbound⟩ := looks_record hrecord
    exact ⟨hlooks.adds, ⟨hbound, hschema, hregistry⟩, .found rfl hlooks.world.store hfind⟩
  | false =>
    simp only [htest, Bool.false_eq_true, if_false] at hrun
    obtain ⟨p, s₁, hrecord, hpure⟩ := bind_eq_ok.mp hrun
    obtain ⟨heq, rfl⟩ := Prod.mk.inj hpure
    cases heq
    obtain ⟨place, s₂, hplace, hrecord⟩ := bind_eq_ok.mp hrecord
    rw [database, bind_of_ok (get_apply s)] at hplace
    simp only [Option.none_or] at hplace
    cases hactive : s.session.active with
    | none => simp [hactive] at hplace
    | some active =>
      simp only [hactive] at hplace
      obtain ⟨heq, rfl⟩ := Prod.mk.inj hplace
      cases heq
      obtain ⟨r, s₃, hcreate, hproxy⟩ := bind_eq_ok.mp hrecord
      obtain ⟨hstore, heq⟩ := onStore_eq_ok hcreate
      obtain ⟨rfl, hmade, hclass, hconflict, hwritable⟩ := Store.createRecord_run hstore
      obtain ⟨d, hd⟩ := Store.get?_of_checkWritable hwritable
      rw [hmade] at heq
      subst heq
      obtain ⟨hlooks, ⟨hschema, hregistry⟩, hr, hbound⟩ := looks_proxyFor hproxy
      have hnew := Store.not_visible_of_conflict hclass hconflict
      exact ⟨(adds_withRecord hnew).trans hlooks.adds, ⟨hbound, hr ▸ hschema, hregistry⟩,
        .made rfl hr hactive hd hclass hconflict hlooks.world.store⟩

/-- Preparing one object: its name has a record already, or gets one. -/
theorem prepare_run (hrun : prepare targets o s = (.ok targets', t)) :
    ∃ u, applyRename o s = (.ok (), u) ∧ s.Prepares u
      ∧ ((targets.contains (s.world.nameOf o) = true ∧ targets' = targets ∧ t = u)
        ∨ targets.contains (s.world.nameOf o) = false ∧ ∃ target,
          targetFor o u = (.ok target, t) ∧ targets' = targets.insert (s.world.nameOf o) target) := by
  obtain ⟨_, u, hrename, hrun⟩ := bind_eq_ok.mp hrun
  obtain ⟨hprepares, -⟩ := applyRename_run hrename
  refine ⟨u, hrename, hprepares, ?_⟩
  rw [bind_of_ok (get_apply u), hprepares.nameOf] at hrun
  cases hknown : targets.contains (s.world.nameOf o) with
  | true =>
    simp only [hknown, if_true] at hrun
    obtain ⟨heq, rfl⟩ := Prod.mk.inj hrun
    cases heq
    exact Or.inl ⟨rfl, rfl, rfl⟩
  | false =>
    simp only [hknown, Bool.false_eq_true, if_false] at hrun
    obtain ⟨target, u', htarget, hpure⟩ := bind_eq_ok.mp hrun
    obtain ⟨heq, rfl⟩ := Prod.mk.inj hpure
    cases heq
    exact Or.inr ⟨rfl, target, htarget, rfl⟩

theorem Targets.Exist.insert {name : String} (h : targets.Exist t) (htarget : Targeted s t target) :
    Targets.Exist (targets.insert name target) t := by
  intro name' target' hget
  rw [OrderedMap.get?_insert] at hget
  split at hget
  · cases hget
    exact htarget.bound
  · exact h name' target' hget

/-- Preparing objects one after the other gives each of their names a record. -/
theorem foldlM_prepare_run {os : List ObjectId} (hrun : os.foldlM prepare .empty s = (.ok targets, t)) :
    s.Prepares t ∧ targets.Exist t ∧ ∀ o ∈ os, targets.contains (s.world.nameOf o) = true := by
  refine foldlM_run (fun done targets t => s.Prepares t ∧ targets.Exist t
    ∧ ∀ o ∈ done, targets.contains (s.world.nameOf o) = true) hrun
    ⟨.refl s, fun _ _ h => by simp at h, by simp⟩ ?_
  rintro done targets o targets' a b - ⟨hprepares, hexist, hknown⟩ hstep
  obtain ⟨u, -, hrenamed, hcases⟩ := prepare_run hstep
  rw [hprepares.nameOf] at hcases
  rcases hcases with ⟨hold, rfl, rfl⟩ | ⟨-, target, htarget, rfl⟩
  · refine ⟨hprepares.trans hrenamed, hexist.mono hrenamed.proxies, fun x hx => ?_⟩
    rcases List.mem_append.mp hx with hx | hx
    · exact hknown x hx
    · exact List.mem_singleton.mp hx ▸ hold
  · obtain ⟨hadds, htargeted, -⟩ := targetFor_run htarget
    have hnext := hrenamed.trans hadds.toPrepares
    refine ⟨hprepares.trans hnext, (hexist.mono hnext.proxies).insert htargeted, fun x hx => ?_⟩
    rw [OrderedMap.contains_insert]
    rcases List.mem_append.mp hx with hx | hx
    · rw [hknown x hx, Bool.or_true]
    · simp [List.mem_singleton.mp hx]

/-- Where nothing waits to be renamed, preparing keeps what was visible as it was. -/
theorem foldlM_prepare_adds {os : List ObjectId} (hold : ∀ o ∈ os, (s.world.object o).oldId = none)
    (hrun : os.foldlM prepare .empty s = (.ok targets, t)) : s.Adds t := by
  refine foldlM_run (fun _ _ t => s.Adds t) hrun (.refl s) ?_
  rintro done targets o targets' a b ho hadds hstep
  obtain ⟨u, hrename, -, hcases⟩ := prepare_run hstep
  obtain ⟨-, hkept, -⟩ := applyRename_run hrename
  obtain rfl := hkept (by rw [hadds.object]; exact hold o ho)
  rcases hcases with ⟨-, -, rfl⟩ | ⟨-, target, htarget, -⟩
  · exact hadds
  · exact hadds.trans (targetFor_run htarget).1

/-- An object whose record is visible under exactly its class and id, and whose class is declared, is
prepared with what a lookup finds, and nothing that is stored changes. -/
theorem prepare_visible (hclass : (s.world.object o).className ∈ s.world.store.classes)
    (hvisible : s.world.store.Visible (s.world.object o).record)
    (hrun : prepare .empty o s = (.ok targets, t)) :
    t.world.store = s.world.store ∧ ∃ target, targets.get? (s.world.nameOf o) = some target
      ∧ Targeted s t target
      ∧ s.world.store.find (s.world.object o).className (s.world.object o).id
        = some (t.world.recordOf target.proxy) := by
  obtain ⟨u, hrename, hprepares, hcases⟩ := prepare_run hrun
  obtain ⟨-, -, hkept⟩ := applyRename_run hrename
  have hstore := hkept hclass hvisible
  rcases hcases with ⟨hold, -⟩ | ⟨-, target, htarget, rfl⟩
  · simp [OrderedMap.contains, OrderedMap.empty] at hold
  · obtain ⟨hadds, htargeted, hobtains⟩ := targetFor_run htarget
    have hname : (u.world.object o).className = (s.world.object o).className :=
      congrArg ClassType.name (hprepares.alike o).type
    have htargeted' : Targeted s t target := by
      refine ⟨htargeted.bound, ?_, ?_⟩
      · rw [← hprepares.sessionRegistry]
        exact htargeted.schema
      · rw [← hprepares.registryId]
        exact htargeted.registry
    cases hobtains with
    | found _ hsame hfind =>
      rw [hname, (hprepares.alike o).id, hstore] at hfind
      exact ⟨hsame.trans hstore, target, by rw [OrderedMap.get?_insert, if_pos rfl], htargeted', hfind⟩
    | made _ _ _ _ _ hfree _ =>
      rw [hname, (hprepares.alike o).id, hstore] at hfree
      exact absurd hvisible (Store.not_visible_of_conflict hclass hfree)

end Session

end RecordGraph
