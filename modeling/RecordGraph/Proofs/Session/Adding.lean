import Mathlib.Logic.Relation
import RecordGraph.Proofs.Session.Confining
import RecordGraph.Proofs.Session.Recording

/-!
What adding objects does to the store.  Adding makes records for objects that have none and fills them;
records that are there already keep their database, their id and their fields, as long as no pending
rename is applied.
-/

namespace RecordGraph

open RecordGraph.Computation Workspace

namespace Store

variable {s t u : Store} {r x : RecordRef} {place name : String}
  {new new' : String → RecordRef → Prop}

/-- All that a store holds, another one holds as it is, and what that one holds beside is new. -/
structure Enlarges (s t : Store) (new : String → RecordRef → Prop) : Prop where
  kept : ∀ place r fields, s.fieldsOf place r = some fields → t.fieldsOf place r = some fields
  made : ∀ place r fields, t.fieldsOf place r = some fields → s.fieldsOf place r = none → new place r

namespace Enlarges

theorem refl (s : Store) (new : String → RecordRef → Prop) : s.Enlarges s new where
  kept _ _ _ h := h
  made _ _ _ h hnone := by
    rw [h] at hnone
    cases hnone

theorem trans (hst : s.Enlarges t new) (htu : t.Enlarges u new) : s.Enlarges u new where
  kept place r fields h := htu.kept place r fields (hst.kept place r fields h)
  made place r fields h hnone := by
    cases ht : t.fieldsOf place r with
    | none => exact htu.made place r fields h ht
    | some before => exact hst.made place r before ht hnone

/-- What a store does not hold, the smaller one does not hold. -/
theorem fieldsOf_eq_none (h : s.Enlarges t new) (ht : t.fieldsOf place r = none) :
    s.fieldsOf place r = none := by
  cases hs : s.fieldsOf place r with
  | none => rfl
  | some fields =>
    rw [h.kept place r fields hs] at ht
    cases ht

/-- Making a record where there is none. -/
theorem withRecord {d : Database} (hd : s.databases.get? place = some d)
    (hfree : s.fieldsOf place r = none) (hnew : new place r) :
    s.Enlarges (s.withRecord place r) new where
  kept name y fields h := by
    rw [fieldsOf_withRecord hd, if_neg]
    · exact h
    · rintro ⟨rfl, rfl⟩
      rw [hfree] at h
      cases h
  made name y fields h hnone := by
    rw [fieldsOf_withRecord hd] at h
    split at h
    · rename_i heq
      rw [heq.1, heq.2]
      exact hnew
    · rw [hnone] at h
      cases h

end Enlarges

end Store

namespace Session

variable {s t u : Workspace} {xs : List ObjectId} {o x : ObjectId} {targets targets' : Targets}

/-! ### Preparing -/

/-- Where records of some objects may be made. -/
def MadeFor (s : Workspace) (xs : List ObjectId) (place : String) (r : RecordRef) : Prop :=
  s.session.active = some place ∧ ∃ x ∈ xs, r = (s.world.object x).record

/-- A record that the store did not hold where it is now. -/
def NewIn (s t : Workspace) (r : RecordRef) : Prop :=
  ∃ place, t.world.store.location r = some place ∧ s.world.store.fieldsOf place r = none

/-- What preparing objects makes of a workspace, as long as no record is renamed. -/
structure Gathers (s : Workspace) (xs : List ObjectId) (targets : Targets) (t : Workspace) : Prop where
  prepares : s.Prepares t
  oldId : ∀ x, (t.world.object x).oldId = none ∨ (t.world.object x).oldId = (s.world.object x).oldId
  exist : targets.Exist t
  lower : s.world.store.renames ≤ t.world.store.renames
  unrenamed : (∀ x ∈ xs, waits s x = false) → t.world.store.renames = s.world.store.renames
  enlarges : t.world.store.renames = s.world.store.renames →
    s.world.store.Enlarges t.world.store (MadeFor s xs)
  fresh : t.world.store.renames = s.world.store.renames → ∀ name target,
    targets.get? name = some target → target.created = true →
    NewIn s t (t.world.recordOf target.proxy)

theorem gathers_start (s : Workspace) (xs : List ObjectId) : Gathers s xs .empty s where
  prepares := .refl s
  oldId _ := Or.inr rfl
  exist _ _ h := by simp at h
  lower := Nat.le_refl _
  unrenamed _ := rfl
  enlarges _ := .refl _ _
  fresh _ _ _ h := by simp at h

namespace Gathers

/-- A step that changes nothing that is stored. -/
theorem idle (h : Gathers s xs targets t) (hprepares : t.Prepares u)
    (holdId : ∀ x, (u.world.object x).oldId = none
      ∨ (u.world.object x).oldId = (t.world.object x).oldId)
    (hstore : u.world.store = t.world.store) : Gathers s xs targets u where
  prepares := h.prepares.trans hprepares
  oldId x := (holdId x).elim Or.inl fun hsame => hsame ▸ h.oldId x
  exist := h.exist.mono hprepares.proxies
  lower := hstore ▸ h.lower
  unrenamed := hstore ▸ h.unrenamed
  enlarges := hstore ▸ h.enlarges
  fresh hrenames name target hget hcreated := by
    rw [hstore] at hrenames
    obtain ⟨place, hplace, hnone⟩ := h.fresh hrenames name target hget hcreated
    refine ⟨place, ?_, ?_⟩
    · rw [hstore, hprepares.record _ (h.exist _ _ hget)]
      exact hplace
    · rw [hprepares.record _ (h.exist _ _ hget)]
      exact hnone

/-- Applying the rename of an object.  Where a record is renamed nothing more is said. -/
theorem applyRename (h : Gathers s xs targets t) (hx : x ∈ xs)
    (hrun : applyRename x t = (.ok (), u)) : Gathers s xs targets u := by
  obtain ⟨hprepares, -⟩ := applyRename_run hrun
  have happlies := applies_applyRename t x
  rw [hrun] at happlies
  cases happlies with
  | unneeded => exact h
  | dropped => exact h.idle hprepares (fun y => (header_forget t x y _).2.2) rfl
  | @applied oldId record renamed store hpending hdiffers hfind hrename =>
    obtain ⟨-, place, -, -, -, rfl⟩ := Store.renameRecord_run hrename
    have hmore : s.world.store.renames ≠ t.world.store.renames + 1 := by
      have := h.lower
      omega
    refine ⟨h.prepares.trans hprepares, fun y => ?_, h.exist.mono hprepares.proxies,
      Nat.le_succ_of_le h.lower, fun hsettled => ?_, fun heq => absurd heq.symm hmore,
      fun heq => absurd heq.symm hmore⟩
    · exact (header_forget _ x y oldId).2.2.elim Or.inl fun hsame => hsame ▸ h.oldId y
    · have hpending' : (s.world.object x).oldId = some oldId := by
        rcases h.oldId x with hnone | hsame
        · rw [hnone] at hpending
          cases hpending
        · exact hsame.symm.trans hpending
      have hwaits : waits s x = true := by
        unfold waits
        rw [hpending', ← (h.prepares.alike x).id]
        exact bne_iff_ne.mpr hdiffers
      rw [hsettled x hx] at hwaits
      cases hwaits

/-- Finding or making the record of an object. -/
theorem targetFor {target : Target} (h : Gathers s xs targets t) (hx : x ∈ xs)
    (hactive : ∀ place, s.session.active = some place → place ∈ s.world.store.loaded)
    (hrun : targetFor x t = (.ok target, u)) :
    Gathers s xs (targets.insert (s.world.nameOf x) target) u := by
  obtain ⟨hadds, htargeted, hobtains⟩ := targetFor_run hrun
  have hexist : Targets.Exist (targets.insert (s.world.nameOf x) target) u :=
    (h.exist.mono hadds.proxies).insert htargeted
  have holdId : ∀ y, (u.world.object y).oldId = none
      ∨ (u.world.object y).oldId = (t.world.object y).oldId := fun y => by
    rw [hadds.object]
    exact Or.inr rfl
  cases hobtains with
  | found hcreated hstore hfind =>
    have hidle := h.idle hadds.toPrepares holdId hstore
    refine ⟨hidle.prepares, hidle.oldId, hexist, hidle.lower, hidle.unrenamed, hidle.enlarges, ?_⟩
    intro hrenames name other hget hmade
    rw [OrderedMap.get?_insert] at hget
    split at hget
    · cases hget
      rw [hcreated] at hmade
      cases hmade
    · exact hidle.fresh hrenames name other hget hmade
  | @made place d hcreated hrecord hplace hd hdeclared hfree hstore =>
    -- The active database is visible, so that nothing in it is written over.
    have hnew := Store.not_visible_of_conflict hdeclared hfree
    have hplace' : s.session.active = some place := by
      rw [← hplace, h.prepares.session]
    have hvisible : place ∈ t.world.store.visible := by
      rw [h.prepares.scope.visible]
      exact Store.mem_visible_of_mem_loaded (hactive place hplace')
    have hunheld : t.world.store.fieldsOf place (t.world.object x).record = none :=
      Store.fieldsOf_of_free hvisible hdeclared hfree
    have hsame : u.world.store.renames = t.world.store.renames := by
      rw [hstore]
      rfl
    have hlocation : u.world.store.location (u.world.recordOf target.proxy) = some place := by
      rw [hstore, hrecord]
      exact Store.location_withRecord_self hd hvisible hnew
    refine ⟨h.prepares.trans hadds.toPrepares, fun y => ?_, hexist, hsame ▸ h.lower,
      fun hsettled => hsame.trans (h.unrenamed hsettled), fun hrenames => ?_, ?_⟩
    · exact (holdId y).elim Or.inl fun heq => heq ▸ h.oldId y
    · rw [hstore]
      refine (h.enlarges (hsame ▸ hrenames)).trans (.withRecord hd hunheld ⟨hplace', x, hx, ?_⟩)
      exact (h.prepares.alike x).record
    · intro hrenames name other hget hmade
      rw [hsame] at hrenames
      rw [OrderedMap.get?_insert] at hget
      split at hget
      · cases hget
        refine ⟨place, hlocation, ?_⟩
        rw [hrecord]
        exact (h.enlarges hrenames).fieldsOf_eq_none hunheld
      · obtain ⟨place', hlocated, hnone⟩ := h.fresh hrenames name other hget hmade
        have hkept := hadds.record _ (h.exist _ _ hget)
        refine ⟨place', ?_, hkept ▸ hnone⟩
        rw [hkept, hadds.location _ (Store.visible_of_location hlocated)]
        exact hlocated

theorem prepare (h : Gathers s xs targets t) (hx : x ∈ xs)
    (hactive : ∀ place, s.session.active = some place → place ∈ s.world.store.loaded)
    (hrun : prepare targets x t = (.ok targets', u)) : Gathers s xs targets' u := by
  obtain ⟨v, hrename, hprepares, hcases⟩ := prepare_run hrun
  have hrenamed := h.applyRename hx hrename
  rw [h.prepares.nameOf] at hcases
  rcases hcases with ⟨-, rfl, rfl⟩ | ⟨-, target, htarget, rfl⟩
  · exact hrenamed
  · exact hrenamed.targetFor hx hactive htarget

end Gathers

theorem foldlM_prepare_gathers
    (hactive : ∀ place, s.session.active = some place → place ∈ s.world.store.loaded)
    (hrun : xs.foldlM prepare .empty s = (.ok targets, t)) : Gathers s xs targets t := by
  refine foldlM_run (fun _ targets t => Gathers s xs targets t) hrun (gathers_start s xs) ?_
  intro done targets x targets' a b hx h hstep
  exact h.prepare hx hactive hstep

/-! ### Writing -/

/-- The records that were made for objects. -/
def Created (t : Workspace) (targets : Targets) (place : String) (r : RecordRef) : Prop :=
  ∃ name target, targets.get? name = some target ∧ target.created = true
    ∧ t.world.recordOf target.proxy = r ∧ t.world.store.location r = some place

/-- With one object prepared there is one record at most that was made. -/
theorem Created.of_insert_empty {target : Target} {name place : String} {r : RecordRef}
    (h : Created t (OrderedMap.empty.insert name target) place r) :
    target.created = true ∧ t.world.recordOf target.proxy = r := by
  obtain ⟨other, target', hget, hcreated, hrecord, -⟩ := h
  rw [OrderedMap.get?_insert] at hget
  split at hget
  · cases hget
    exact ⟨hcreated, hrecord⟩
  · simp at hget

/-- Writing the objects of an addition stays within the records that were made for them. -/
theorem forM_writeObject_confined {mode : Persistence} {done : PUnit} (hmode : mode.createOnly = true)
    (hexist : targets.Exist t) (hrun : xs.forM (writeObject mode targets) t = (.ok done, u)) :
    Confined t (Created t targets) u := by
  have hwrites : Preserves (Confined t (Created t targets)) (xs.forM (writeObject mode targets)) := by
    refine Preserves.forM fun x _ => confined_writeObject ?_
    intro target hget hwritten
    rw [hmode] at hwritten
    exact ⟨hexist _ _ hget, fun place hplace => ⟨_, target, hget, hwritten, rfl, hplace⟩⟩
  exact hwrites.run (.refl t _) hrun

theorem Gathers.enlarges_of_confined (h : Gathers s xs targets t)
    (hconfined : Confined t (Created t targets) u)
    (hrenames : t.world.store.renames = s.world.store.renames) :
    s.world.store.Enlarges u.world.store (MadeFor s xs) where
  kept place r fields hfields := by
    rw [hconfined.fields]
    · exact (h.enlarges hrenames).kept place r fields hfields
    -- What was written to is a record that was made, and so was not held before.
    · rintro ⟨name, target, hget, hcreated, rfl, hplace⟩
      obtain ⟨place', hplace', hnone⟩ := h.fresh hrenames name target hget hcreated
      obtain rfl : place' = place := Option.some.inj (hplace'.symm.trans hplace)
      rw [hnone] at hfields
      cases hfields
  made place r fields hfields hnone := by
    have hheld : (t.world.store.fieldsOf place r).isSome = true := by
      rw [Store.isSome_fieldsOf_iff, ← hconfined.still.shape.holdsIn, ← Store.isSome_fieldsOf_iff,
        hfields]
      rfl
    obtain ⟨before, hbefore⟩ := Option.isSome_iff_exists.mp hheld
    exact (h.enlarges hrenames).made place r before hbefore hnone

/-! ### Adding -/

/-- Persisting goes through what can be reached, and without recursion through the object alone. -/
theorem reachable_of_mem_persisted {recursive : Bool} (hx : x ∈ persisted s recursive o) :
    (recursive = false → x = o) ∧ Relation.ReflTransGen (fun y z => z ∈ s.world.related y) o x := by
  cases recursive with
  | false =>
    obtain rfl := List.mem_singleton.mp hx
    exact ⟨fun _ => rfl, .refl⟩
  | true => exact ⟨nofun, World.leads_of_mem_traverse hx⟩

/-- Whether an object waits for the rename of a record that the store has. -/
def renamesRecord (s : Workspace) (x : ObjectId) : Bool :=
  waits s x && s.world.store.testRecord (s.world.object x).className (s.world.object x).storedId

/-- Applying the rename that an object waits for: its record, if the store has it, is moved to the id
that the object has now. -/
theorem applyRename_store {done : Unit} (hrun : applyRename x s = (.ok done, t)) :
    if renamesRecord s x = true then
      ∃ record place, record.id ≠ (s.world.object x).id ∧ s.world.store.location record = some place
        ∧ t.world.store
          = s.world.store.withRenamed place record ⟨record.className, (s.world.object x).id⟩
    else t.world.store = s.world.store := by
  have happlies := applies_applyRename s x
  rw [hrun] at happlies
  unfold renamesRecord waits Object.storedId
  cases happlies with
  | unneeded hsettled => simp [hsettled]
  | @dropped oldId hpending hmoot =>
    rw [hpending]
    have hnot : ¬ ((oldId != (s.world.object x).id)
        && s.world.store.testRecord (s.world.object x).className oldId) = true := by
      rcases hmoot with rfl | hmissing
      · simp
      · simp [hmissing]
    exact (if_neg hnot).symm ▸ rfl
  | @applied oldId record renamed store hpending hdiffers hfind hrename =>
    rw [hpending]
    have hstored : ((oldId != (s.world.object x).id)
        && s.world.store.testRecord (s.world.object x).className oldId) = true := by
      rw [Store.testRecord, hfind]
      simp [hdiffers]
    obtain ⟨-, place, hplace, -, -, rfl⟩ := Store.renameRecord_run hrename
    obtain ⟨-, hid, -⟩ := Store.find_eq_some hfind
    exact (if_pos hstored).symm ▸ ⟨record, place, hid ▸ hdiffers, hplace, rfl⟩

/-- Preparing an object that does not wait for the rename of a stored record renames nothing. -/
theorem prepare_unneeded (hrun : prepare .empty o s = (.ok targets, t))
    (hsettled : renamesRecord s o = false) : t.world.store.renames = s.world.store.renames := by
  obtain ⟨u, hrename, -, hcases⟩ := prepare_run hrun
  have hstore := applyRename_store hrename
  rw [hsettled, if_neg Bool.false_ne_true] at hstore
  rcases hcases with ⟨-, -, rfl⟩ | ⟨-, target, htarget, -⟩
  · rw [hstore]
  · obtain ⟨-, -, hobtains⟩ := targetFor_run htarget
    cases hobtains with
    | found _ hsame => rw [hsame, hstore]
    | made _ _ _ _ _ _ hmade =>
      rw [hmade, hstore]
      rfl

/-- The record that is renamed for an object is not where it was, and is not made again. -/
theorem prepare_loses (hrun : prepare .empty o s = (.ok targets, t))
    (hneeded : renamesRecord s o = true) :
    ∃ place r fields, s.world.store.fieldsOf place r = some fields
      ∧ t.world.store.fieldsOf place r = none ∧ ¬ Created t targets place r := by
  obtain ⟨u, hrename, hprepares, hcases⟩ := prepare_run hrun
  have hstore := applyRename_store hrename
  rw [hneeded, if_pos rfl] at hstore
  obtain ⟨record, place, hid, hplace, hstore⟩ := hstore
  obtain ⟨fields, hfields⟩ := Store.exists_fieldsOf_of_location hplace
  have hmoved : u.world.store.fieldsOf place record = none := by
    rw [hstore, Store.fieldsOf_withRenamed hplace, if_neg, if_pos ⟨rfl, rfl⟩]
    exact fun h => hid (congrArg RecordRef.id h.2)
  refine ⟨place, record, fields, hfields, ?_⟩
  rcases hcases with ⟨hknown, -⟩ | ⟨-, target, htarget, rfl⟩
  · cases hknown
  · obtain ⟨-, -, hobtains⟩ := targetFor_run htarget
    have hother : record ≠ (u.world.object o).record := by
      rintro rfl
      exact hid (hprepares.alike o).id
    cases hobtains with
    | found hcreated hsame =>
      refine ⟨hsame ▸ hmoved, fun h => ?_⟩
      have hmade := h.of_insert_empty.1
      rw [hcreated] at hmade
      cases hmade
    | @made active d _ hrecord _ hd _ _ hmade =>
      refine ⟨?_, fun h => hother (h.of_insert_empty.2.symm.trans hrecord)⟩
      rw [hmade, Store.fieldsOf_withRecord hd, if_neg fun h => hother h.2]
      exact hmoved

/-- What a successful addition makes of the store.  It renames no record if none of the objects waits
for a rename.  As long as it renames none, every record stays in its database, with its id and its
fields, and whatever is there beside was made, in the active database, for the object or for one that
can be reached from it.  The addition of one object keeps all records exactly if the object does not
wait for the rename of a record that the store has. -/
theorem add_enlarges {p : ProxyId} {recursive : Bool}
    (hactive : ∀ place, s.session.active = some place → place ∈ s.world.store.loaded)
    (hrun : add o recursive s = (.ok p, t)) :
    ((∀ x ∈ persisted s recursive o, waits s x = false) →
      t.world.store.renames = s.world.store.renames)
    ∧ (t.world.store.renames = s.world.store.renames →
      s.world.store.Enlarges t.world.store fun place r => s.session.active = some place
        ∧ ∃ x, (recursive = false → x = o)
          ∧ Relation.ReflTransGen (fun y z => z ∈ s.world.related y) o x
          ∧ r = (s.world.object x).record)
    ∧ (recursive = false →
      ((∀ place r fields, s.world.store.fieldsOf place r = some fields →
          t.world.store.fieldsOf place r = some fields)
        ↔ renamesRecord s o = false)) := by
  rw [add, bind_of_ok (get_apply s)] at hrun
  obtain ⟨targets, u, hprepare, hwrite, -⟩ := persist_run hrun
  have hgathers := foldlM_prepare_gathers hactive hprepare
  have hconfined := forM_writeObject_confined (t := u) rfl hgathers.exist hwrite
  have hsame : t.world.store.renames = u.world.store.renames := hconfined.still.shape.renames
  have hall : t.world.store.renames = s.world.store.renames →
      s.world.store.Enlarges t.world.store (MadeFor s (persisted s recursive o)) := fun hrenames =>
    hgathers.enlarges_of_confined hconfined (hsame.symm.trans hrenames)
  refine ⟨fun hsettled => hsame.trans (hgathers.unrenamed hsettled), fun hrenames => ?_, ?_⟩
  · refine ⟨(hall hrenames).kept, fun place r fields hfields hnone => ?_⟩
    obtain ⟨hplace, x, hx, hr⟩ := (hall hrenames).made place r fields hfields hnone
    obtain ⟨hself, hreachable⟩ := reachable_of_mem_persisted hx
    exact ⟨hplace, x, hself, hreachable, hr⟩
  · rintro rfl
    have hprepare : prepare .empty o s = (.ok targets, u) := by
      obtain ⟨middle, v, hstep, hpure⟩ := bind_eq_ok.mp hprepare
      obtain ⟨heq, rfl⟩ := Prod.mk.inj hpure
      cases heq
      exact hstep
    cases hneeded : renamesRecord s o with
    | false =>
      refine ⟨fun _ => rfl, fun _ => ?_⟩
      exact (hall (hsame.trans (prepare_unneeded hprepare hneeded))).kept
    | true =>
      refine ⟨fun hkept => ?_, fun heq => Bool.noConfusion heq⟩
      obtain ⟨place, r, fields, hfields, hgone, hother⟩ := prepare_loses hprepare hneeded
      have hafter := hkept place r fields hfields
      rw [hconfined.fields place r hother, hgone] at hafter
      cases hafter

/-- A new object that points to the one of a record. -/
def labelledJoined : Workspace :=
  (setAll ⟨1⟩ [("peer", .object ⟨0⟩)] (newObject "Person" "c" labelledHydrated).2).2

/-- The new object is added with all that it leads to. -/
theorem add_enlarges_joined :
    ⟨0⟩ ∈ labelledJoined.world.related ⟨1⟩ ∧ ∃ p t, add ⟨1⟩ true labelledJoined = (.ok p, t)
      ∧ t.world.store.renames = labelledJoined.world.store.renames
      ∧ t.world.store.fieldsOf "near" ⟨"Person", "a"⟩
        = labelledJoined.world.store.fieldsOf "near" ⟨"Person", "a"⟩ := by
  obtain ⟨p, hrun⟩ := run_of_isOk (m := add ⟨1⟩ true) (s := labelledJoined) (by decide +kernel)
  have hactive : ∀ place, labelledJoined.session.active = some place →
      place ∈ labelledJoined.world.store.loaded := by
    intro place hplace
    cases hplace
    decide +kernel
  obtain ⟨hunrenamed, henlarges, -⟩ := add_enlarges hactive hrun
  have hrenames := hunrenamed (by decide +kernel)
  have hstored : (labelledJoined.world.store.fieldsOf "near" ⟨"Person", "a"⟩).isSome = true := by
    decide +kernel
  obtain ⟨fields, hfields⟩ := Option.isSome_iff_exists.mp hstored
  refine ⟨by decide +kernel, p, _, hrun, hrenames, ?_⟩
  rw [hfields]
  exact (henlarges hrenames).kept _ _ _ hfields

/-- Adding a renamed object moves its record, although the record was there before. -/
theorem not_kept_of_add :
    ¬ ∀ (s t : Workspace) (o : ObjectId) (recursive : Bool) (p : ProxyId),
      (∀ place, s.session.active = some place → place ∈ s.world.store.loaded) →
      add o recursive s = (.ok p, t) →
      (∀ place r fields, s.world.store.fieldsOf place r = some fields →
        t.world.store.fieldsOf place r = some fields)
      ∧ ∀ place r fields, t.world.store.fieldsOf place r = some fields →
        s.world.store.fieldsOf place r = none →
        ∃ x, Relation.ReflTransGen (fun y z => z ∈ s.world.related y) o x
          ∧ r = (s.world.object x).record := by
  intro hclaim
  obtain ⟨p, hrun⟩ := run_of_isOk (m := add ⟨0⟩ false) (s := labelledRenamed) (by decide +kernel)
  have hactive : ∀ place, labelledRenamed.session.active = some place →
      place ∈ labelledRenamed.world.store.loaded := by
    intro place hplace
    cases hplace
    decide +kernel
  obtain ⟨hkept, -⟩ := hclaim _ _ _ _ _ hactive hrun
  have hstored : (labelledRenamed.world.store.fieldsOf "near" ⟨"Person", "a"⟩).isSome = true := by
    decide +kernel
  obtain ⟨fields, hfields⟩ := Option.isSome_iff_exists.mp hstored
  have hgone : (add ⟨0⟩ false labelledRenamed).2.world.store.fieldsOf "near" ⟨"Person", "a"⟩ = none :=
    Option.isNone_iff_eq_none.mp (by decide +kernel)
  have hafter := hkept "near" ⟨"Person", "a"⟩ fields hfields
  rw [hgone] at hafter
  cases hafter

end Session

end RecordGraph
