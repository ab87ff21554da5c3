import RecordGraph.Proofs.Session.Preparing

/-!
Preparing objects that have no records yet.  Where nothing visible stands in the way, every object gets
a new, empty record of its own, and no other record becomes visible.
-/

namespace RecordGraph

open RecordGraph.Computation

/-- Every loaded database is visible. -/
theorem Store.mem_visible_of_mem_loaded {s : Store} {name : String} (h : name ∈ s.loaded) :
    name ∈ s.visible :=
  NameGraph.mem_reach_iff.mpr ⟨name, h, .refl name⟩

namespace Session

open Workspace

variable {s t u : Workspace} {o : ObjectId} {targets : Targets} {target : Target}
  {os os' : List ObjectId}

/-- Objects that were never persisted: no two of them, and no visible record, stand in each other's
way. -/
structure Unrecorded (s : Workspace) (os : List ObjectId) : Prop where
  oldId : ∀ o ∈ os, (s.world.object o).oldId = none
  names : ∀ x ∈ os, ∀ y ∈ os, s.world.nameOf x = s.world.nameOf y → x = y
  apart : ∀ x ∈ os, ∀ y ∈ os, (s.world.object x).id = (s.world.object y).id →
    s.world.store.hierarchy.isA (s.world.object x).className (s.world.object y).className = true →
      x = y
  free : ∀ x ∈ os, ∀ r, s.world.store.Visible r → r.id = (s.world.object x).id →
    s.world.store.hierarchy.isA r.className (s.world.object x).className = false

/-- Objects got new records. -/
structure Recorded (s t : Workspace) (targets : Targets) (os : List ObjectId) : Prop where
  target : ∀ o ∈ os, ∃ target, targets.get? (s.world.nameOf o) = some target ∧ Targeted s t target
    ∧ t.world.recordOf target.proxy = (s.world.object o).record
  known : ∀ name, targets.contains name = true → ∃ o ∈ os, s.world.nameOf o = name
  visible : ∀ r, t.world.store.Visible r →
    s.world.store.Visible r ∨ ∃ o ∈ os, r = (s.world.object o).record
  located : ∀ o ∈ os, ∃ place, t.world.store.location (s.world.object o).record = some place
    ∧ ∀ name multi, t.world.store.stored place (s.world.object o).record name multi
      = if multi then .list [] else .null

theorem recorded_nil (s : Workspace) : Recorded s s .empty [] :=
  ⟨by simp, fun _ h => by simp [OrderedMap.contains, OrderedMap.empty] at h, fun _ h => Or.inl h,
    by simp⟩

theorem Recorded.of_mem_iff (h : Recorded s t targets os) (hmem : ∀ o, o ∈ os ↔ o ∈ os') :
    Recorded s t targets os' where
  target o ho := h.target o ((hmem o).mpr ho)
  known name hname := by
    obtain ⟨o, ho, heq⟩ := h.known name hname
    exact ⟨o, (hmem o).mp ho, heq⟩
  visible r hr := by
    apply (h.visible r hr).imp_right
    rintro ⟨o, ho, heq⟩
    exact ⟨o, (hmem o).mp ho, heq⟩
  located o ho := h.located o ((hmem o).mpr ho)

theorem Targeted.trans (h : Targeted s t target) (htu : t.Steady u) : Targeted s u target where
  bound := Nat.lt_of_lt_of_le h.bound htu.proxies
  schema := by
    rw [htu.record _ h.bound, htu.schema _ h.bound]
    exact h.schema
  registry := (htu.registry _ h.bound).trans h.registry

theorem Targeted.of_steady (hst : s.Steady t) (h : Targeted t u target) : Targeted s u target where
  bound := h.bound
  schema := hst.sessionRegistry ▸ h.schema
  registry := hst.registryId ▸ h.registry

/-- A lookup finds no record for an object that has none. -/
theorem Recorded.find_eq_none (h : Recorded s t targets os) (hnew : Unrecorded s os')
    (hos : ∀ x ∈ os, x ∈ os') (hadds : s.Adds t) (ho : o ∈ os') (hlast : o ∉ os) :
    t.world.store.find (s.world.object o).className (s.world.object o).id = none := by
  cases hfind : t.world.store.find (s.world.object o).className (s.world.object o).id with
  | none => rfl
  | some r =>
    obtain ⟨hvisible, hid, hisA, -⟩ := Store.find_eq_some hfind
    rw [hadds.scope.hierarchy] at hisA
    rcases h.visible r hvisible with hold | ⟨x, hx, rfl⟩
    · simp [hnew.free o ho r hold hid] at hisA
    · exact absurd (hnew.apart x (hos x hx) o ho hid hisA ▸ hx) hlast

/-- An object got a record of its own. -/
theorem Recorded.append {place : String} {d : Database} (h : Recorded s t targets os)
    (hadds : s.Adds t) (htu : t.Adds u) (hlast : targets.contains (s.world.nameOf o) = false)
    (htarget : Targeted t u target)
    (hrecord : u.world.recordOf target.proxy = (s.world.object o).record)
    (hplace : place ∈ t.world.store.visible) (hd : t.world.store.databases.get? place = some d)
    (hnew : ¬ t.world.store.Visible (s.world.object o).record)
    (hstore : u.world.store = t.world.store.withRecord place (s.world.object o).record) :
    Recorded s u (targets.insert (s.world.nameOf o) target) (os ++ [o]) where
  target x hx := by
    rcases List.mem_append.mp hx with hx | hx
    · obtain ⟨target', hget, htargeted, hof⟩ := h.target x hx
      refine ⟨target', ?_, htargeted.trans htu.toSteady, ?_⟩
      · rw [OrderedMap.get?_insert, if_neg, hget]
        intro heq
        have hknown := OrderedMap.get?_isSome targets (s.world.nameOf x)
        rw [hget, heq, hlast] at hknown
        cases hknown
      · rw [htu.record _ htargeted.bound, hof]
    · obtain rfl := List.mem_singleton.mp hx
      exact ⟨target, by rw [OrderedMap.get?_insert, if_pos rfl], htarget.of_steady hadds.toSteady,
        hrecord⟩
  known name hname := by
    rw [OrderedMap.contains_insert] at hname
    by_cases heq : name = s.world.nameOf o
    · exact ⟨o, List.mem_append_right _ List.mem_cons_self, heq.symm⟩
    · obtain ⟨x, hx, hx'⟩ := h.known name (by simpa [heq] using hname)
      exact ⟨x, List.mem_append_left _ hx, hx'⟩
  visible r hr := by
    by_cases heq : r = (s.world.object o).record
    · exact Or.inr ⟨o, List.mem_append_right _ List.mem_cons_self, heq⟩
    · unfold Store.Visible at hr
      rw [hstore, Store.location_withRecord heq] at hr
      apply (h.visible r hr).imp_right
      rintro ⟨x, hx, hx'⟩
      exact ⟨x, List.mem_append_left _ hx, hx'⟩
  located x hx := by
    rcases List.mem_append.mp hx with hx | hx
    · obtain ⟨place', hlocated, hempty⟩ := h.located x hx
      have hvisible : t.world.store.Visible (s.world.object x).record :=
        Option.isSome_iff_exists.mpr ⟨place', hlocated⟩
      exact ⟨place', (htu.location _ hvisible).trans hlocated, fun name multi =>
        (htu.stored _ hvisible place' name multi).trans (hempty name multi)⟩
    · obtain rfl := List.mem_singleton.mp hx
      rw [hstore]
      exact ⟨place, Store.location_withRecord_self hd hplace hnew, fun name multi =>
        Store.stored_withRecord_self hd multi⟩

/-- Preparing objects that have no records yet makes their records. -/
theorem foldlM_prepare_recorded
    (hactive : ∀ place, s.session.active = some place → place ∈ s.world.store.loaded)
    (hnew : Unrecorded s os) (hrun : os.foldlM prepare .empty s = (.ok targets, t)) :
    s.Adds t ∧ Recorded s t targets os := by
  suffices h : s.Adds t ∧ (∀ o ∈ os, o ∈ os) ∧ Recorded s t targets os from ⟨h.1, h.2.2⟩
  refine foldlM_run (fun done targets t => s.Adds t ∧ (∀ o ∈ done, o ∈ os)
    ∧ Recorded s t targets done) hrun ⟨.refl s, by simp, recorded_nil s⟩ ?_
  rintro done targets o targets' a b ho ⟨hadds, hall, hrecorded⟩ hstep
  have hall' : ∀ x ∈ done ++ [o], x ∈ os := by
    intro x hx
    rcases List.mem_append.mp hx with hx | hx
    · exact hall x hx
    · exact List.mem_singleton.mp hx ▸ ho
  obtain ⟨u, hrename, -, hcases⟩ := prepare_run hstep
  obtain ⟨-, hkept, -⟩ := applyRename_run hrename
  obtain rfl := hkept (by rw [hadds.object]; exact hnew.oldId o ho)
  rw [hadds.nameOf] at hcases
  rcases hcases with ⟨hknown, rfl, rfl⟩ | ⟨hlast, target, htarget, rfl⟩
  · obtain ⟨x, hx, hname⟩ := hrecorded.known _ hknown
    obtain rfl := hnew.names x (hall x hx) o ho hname
    refine ⟨hadds, hall', hrecorded.of_mem_iff fun y => ?_⟩
    simp only [List.mem_append, List.mem_singleton]
    exact ⟨Or.inl, fun h => h.elim id fun heq => heq ▸ hx⟩
  · obtain ⟨htu, htargeted, hobtains⟩ := targetFor_run htarget
    have hfresh : o ∉ done := fun hmem => by
      obtain ⟨target', hget, -⟩ := hrecorded.target o hmem
      have hknown := OrderedMap.get?_isSome targets (s.world.nameOf o)
      rw [hget, hlast] at hknown
      cases hknown
    have hnone := hrecorded.find_eq_none hnew hall hadds ho hfresh
    refine ⟨hadds.trans htu, hall', ?_⟩
    cases hobtains with
    | found _ _ hfind =>
      rw [hadds.object, hnone] at hfind
      cases hfind
    | made _ hrecord hplace hd hclass hfree hstore =>
      rw [hadds.object] at hrecord hclass hfree hstore
      rw [hadds.sameSession] at hplace
      refine hrecorded.append hadds htu hlast htargeted hrecord ?_ hd
        (Store.not_visible_of_conflict hclass hfree) hstore
      rw [hadds.scope.visible]
      exact Store.mem_visible_of_mem_loaded (hactive _ hplace)

end Session

end RecordGraph
