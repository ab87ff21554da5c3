import RecordGraph.Proofs.Session.Identity
import RecordGraph.Proofs.Store.Lineage

/-!
Destroying.  The store loses one record that the class and the stored id of the object lead to, and
the cache loses the object where it is kept under that id; other objects that are kept there stay.
So the record is gone when nothing else leads to the class and the id.
-/

namespace RecordGraph

open RecordGraph.Computation Workspace

namespace Store

variable {s : Store} {r x : RecordRef} {place className id : String}

/-- A record is all that its class and its id lead to, in one database. -/
structure Sole (s : Store) (r : RecordRef) : Prop where
  lineage : ∀ c ∈ s.classes, s.hierarchy.isA c r.className = true → s.Visible ⟨c, r.id⟩ →
    c = r.className
  place : ∀ a ∈ s.visible, ∀ b ∈ s.visible, s.holdsIn a r = true → s.holdsIn b r = true → a = b

instance (s : Store) (r : RecordRef) : Decidable (s.Sole r) :=
  decidable_of_iff
    ((∀ c ∈ s.classes, s.hierarchy.isA c r.className = true → s.Visible ⟨c, r.id⟩ → c = r.className)
      ∧ ∀ a ∈ s.visible, ∀ b ∈ s.visible, s.holdsIn a r = true → s.holdsIn b r = true → a = b)
    ⟨fun h => ⟨h.1, h.2⟩, fun h => ⟨h.lineage, h.place⟩⟩

theorem testRecord_erased {c : String} :
    (s.erased place x).testRecord c id = true
      ↔ ∃ c' ∈ s.classes, s.hierarchy.isA c' c = true ∧ (s.erased place x).Visible ⟨c', id⟩ := by
  have hscope := sameScope_erased s place x
  rw [testRecord, find_isSome_iff, erased, hscope.classes, hscope.hierarchy]

/-- What is left of a class and an id when the record goes that they lead to first. -/
theorem testRecord_erased_iff (hfind : s.find r.className r.id = some x)
    (hplace : s.location x = some place) (hr : s.Visible r) (hclass : r.className ∈ s.classes) :
    (s.erased place x).testRecord r.className r.id = false ↔ s.Sole r := by
  obtain ⟨-, hid, hisA, hdeclared⟩ := find_eq_some hfind
  obtain ⟨hscope, hholds⟩ := locate_eq_some hplace
  rw [← holdsIn_iff] at hholds
  rw [← Bool.not_eq_true, testRecord_erased]
  constructor
  · intro hgone
    have hnothing : ∀ c ∈ s.classes, s.hierarchy.isA c r.className = true →
        ∀ name ∈ s.visible, s.holdsIn name ⟨c, r.id⟩ = true → name = place ∧ ⟨c, r.id⟩ = x := by
      intro c hc hisA name hname hholds
      refine Decidable.byContradiction fun hkept => hgone ⟨c, hc, hisA, ?_⟩
      exact visible_erased_iff.mpr ⟨name, hname, hholds, hkept⟩
    obtain ⟨name, hname, hself⟩ := visible_iff_holdsIn.mp hr
    obtain ⟨-, rfl⟩ := hnothing r.className hclass (Hierarchy.isA_refl _ _) name hname hself
    constructor
    · intro c hc hisA hvisible
      obtain ⟨other, hother, hholds⟩ := visible_iff_holdsIn.mp hvisible
      exact congrArg RecordRef.className (hnothing c hc hisA other hother hholds).2
    · intro a ha b hb hholdsA hholdsB
      have hfirst := hnothing r.className hclass (Hierarchy.isA_refl _ _)
      exact (hfirst a ha hholdsA).1.trans (hfirst b hb hholdsB).1.symm
  · rintro hsole ⟨c, hc, hisA', hvisible⟩
    obtain ⟨name, hname, hkept, hnot⟩ := visible_erased_iff.mp hvisible
    obtain rfl := hsole.lineage c hc hisA' (visible_iff_holdsIn.mpr ⟨name, hname, hkept⟩)
    have hx : r = x := by
      have hsame := hsole.lineage x.className hdeclared hisA
        (by rw [← hid]; exact visible_iff_holdsIn.mpr ⟨place, hscope, hholds⟩)
      cases x
      cases r
      simp_all
    subst hx
    exact hnot ⟨hsole.place name hname place hscope hkept hholds, rfl⟩

theorem destroyRecord_run {t : Store} {done : Unit} (hrun : Store.destroyRecord r s = (.ok done, t)) :
    ∃ place, s.location r = some place ∧ t = s.erased place r := by
  have hrun' : (Operation.destroyRecord r).run s = (.ok done, t) := hrun
  have htransition := transition_of_run hrun'
  cases htransition with
  | destroyRecord hplace _ _ => exact ⟨_, hplace, rfl⟩

end Store

namespace Session

variable {s t : Workspace} {o x : ObjectId} {className id : String}

theorem cached?_evict (s : Workspace) (o : ObjectId) (id className i : String) :
    (s.evict o id).cached? className i
      = if className ∈ s.classesOf o ∧ i = id ∧ s.cached? className id = some o then none
        else s.cached? className i :=
  SessionCache.get?_evict ..

/-- What is cached after something left the cache was cached before. -/
theorem cached?_of_evict {i : String} (h : (s.evict o id).cached? className i = some x) :
    s.cached? className i = some x := by
  rw [cached?_evict] at h
  split at h
  · cases h
  · exact h

/-- What destroying an object does to its record: one that the class and the stored id lead to is
erased, and the object is not cached for them any more. -/
structure Destroys (s : Workspace) (o : ObjectId) (r : RecordRef) (t : Workspace) : Prop where
  store : s.world.store.testRecord r.className r.id = false ∧ t.world.store = s.world.store
    ∨ ∃ x place, s.world.store.find r.className r.id = some x
      ∧ s.world.store.location x = some place ∧ t.world.store = s.world.store.erased place x
  cached : t.cached? r.className r.id
    = if s.cached? r.className r.id = some o then none else s.cached? r.className r.id

/-- What destroying does when the record is gone: the object is cached neither under its id nor under
the one that the store knew. -/
def dropFromCache (o : ObjectId) (object : Object) : SessionM Unit := do
  modify fun s => s.evict o object.id
  match object.oldId with
  | none => pure ()
  | some oldId => do
    modify fun s => s.evict o oldId
    act o.clearRename

/-- Destroying removes the record that a lookup by class and stored id gives, if there is one. -/
theorem destroy_apply (o : ObjectId) (s : Workspace) :
    destroy o s = match s.world.store.find (s.world.object o).className (s.world.object o).storedId with
      | none => dropFromCache o (s.world.object o) s
      | some r => (onStore (Store.destroyRecord r) >>= fun _ => dropFromCache o (s.world.object o)) s := by
  rw [destroy, bind_of_ok (get_apply s)]
  cases hfind : s.world.store.find (s.world.object o).className (s.world.object o).storedId with
  | none =>
    simp only [Store.testRecord, hfind, Option.isSome_none, Bool.false_eq_true, if_false]
    rfl
  | some r =>
    simp only [Store.testRecord, hfind, Option.isSome_some, if_true]
    have hask : askStore (fun store => store.getRecord (s.world.object o).className
        (s.world.object o).storedId) s = (.ok r, s) := by
      rw [askStore_apply, Store.getRecord_eq_ok.mpr hfind]
    rw [bind_of_ok hask]
    rfl

theorem dropFromCache_run {object : Object} {done : Unit} (hobject : s.world.object o = object)
    (hrun : dropFromCache o object s = (.ok done, t)) :
    t.world.store = s.world.store
      ∧ t.cached? object.className object.storedId
        = if s.cached? object.className object.storedId = some o then none
          else s.cached? object.className object.storedId := by
  have hclass : object.className ∈ s.classesOf o := hobject ▸ ClassType.name_mem_names _
  rw [dropFromCache, bind_of_ok (modify_apply _ s)] at hrun
  cases hold : object.oldId with
  | none =>
    simp only [hold] at hrun
    obtain ⟨-, rfl⟩ := Prod.mk.inj hrun
    refine ⟨rfl, ?_⟩
    rw [Object.storedId, hold, Option.getD_none, cached?_evict]
    simp [hclass]
  | some oldId =>
    simp only [hold] at hrun
    obtain ⟨-, rfl⟩ := Prod.mk.inj hrun
    refine ⟨rfl, ?_⟩
    rw [Object.storedId, hold, Option.getD_some]
    change ((s.evict o object.id).evict o oldId).cached? _ oldId = _
    have hclass' : object.className ∈ (s.evict o object.id).classesOf o := hclass
    rw [cached?_evict, cached?_evict]
    by_cases hid : oldId = object.id
    · subst hid
      by_cases hcached : s.cached? object.className object.id = some o <;> simp [hclass, hcached]
    · simp [hclass', hid]

theorem destroy_run {done : Unit} (hrun : destroy o s = (.ok done, t)) :
    Destroys s o (s.world.object o).storedRecord t := by
  rw [destroy_apply] at hrun
  cases hfind : s.world.store.find (s.world.object o).className (s.world.object o).storedId with
  | none =>
    rw [hfind] at hrun
    obtain ⟨hstore, hcached⟩ := dropFromCache_run rfl hrun
    have htest : s.world.store.testRecord (s.world.object o).className (s.world.object o).storedId
        = false := by
      rw [Store.testRecord, hfind]
      rfl
    exact ⟨Or.inl ⟨htest, hstore⟩, hcached⟩
  | some x =>
    rw [hfind] at hrun
    obtain ⟨_, s₁, hstore, hrun⟩ := bind_eq_ok.mp hrun
    obtain ⟨hstore, heq⟩ := onStore_eq_ok hstore
    obtain ⟨place, hplace, herased⟩ := Store.destroyRecord_run hstore
    have hobject : s₁.world.object o = s.world.object o := by rw [heq]; rfl
    have hsame : s₁.cached? = s.cached? := by rw [heq]; rfl
    obtain ⟨hkept, hcached⟩ := dropFromCache_run hobject hrun
    rw [hsame] at hcached
    exact ⟨Or.inr ⟨x, place, hfind, hplace, hkept.trans herased⟩, hcached⟩

theorem getObject_of_cached (hcached : s.cached? className id = some x) :
    getObject className id s = (.ok x, s) := by
  rw [getObject, bind_of_ok (get_apply s), hcached]
  rfl

theorem getObject_of_missing (hcached : s.cached? className id = none)
    (hmissing : s.world.store.testRecord className id = false) :
    getObject className id s = (.error (.recordNotFound (fullName className id)), s) := by
  have hfind : s.world.store.find className id = none := by
    rwa [Store.testRecord, Option.isSome_eq_false_iff, Option.isNone_iff_eq_none] at hmissing
  have hget : s.world.store.getRecord className id
      = .error (.recordNotFound (fullName className id)) := by
    rw [Store.getRecord, hfind]
  rw [getObject, bind_of_ok (get_apply s), hcached]
  refine bind_of_error (bind_of_error ?_)
  rw [askStore_apply, hget]

/-- The record of a destroyed object is gone exactly when nothing else led to its class and stored id.
Then getting an object of them fails for want of a record, unless another object is cached for them:
such an object is given back. -/
theorem destroy_gone {r : RecordRef} (hr : (s.world.object o).storedRecord = r)
    (hvisible : s.world.store.Visible r) (hrun : destroy o s = (.ok (), t)) :
    (s.world.store.Sole r → t.world.store.testRecord r.className r.id = false)
      ∧ (r.className ∈ s.world.store.classes → t.world.store.testRecord r.className r.id = false →
        s.world.store.Sole r)
      ∧ (s.world.store.Sole r → (∀ x, s.cached? r.className r.id = some x → x = o) →
        getObject r.className r.id t = (.error (.recordNotFound r.fullName), t))
      ∧ ∀ x, s.cached? r.className r.id = some x → x ≠ o →
        getObject r.className r.id t = (.ok x, t) := by
  obtain ⟨hstore, hcached⟩ := hr ▸ destroy_run hrun
  have hgone : s.world.store.Sole r → t.world.store.testRecord r.className r.id = false := by
    intro hsole
    rcases hstore with ⟨hnone, heq⟩ | ⟨x, place, hfind, hplace, heq⟩
    · rwa [heq]
    · obtain ⟨hx, hid, hisA, hclass⟩ := Store.find_eq_some hfind
      have hown := hsole.lineage x.className hclass hisA (by rw [← hid]; exact hx)
      rw [heq]
      exact (Store.testRecord_erased_iff hfind hplace hvisible (hown ▸ hclass)).mpr hsole
  refine ⟨hgone, ?_, ?_, ?_⟩
  · intro hclass htest
    rcases hstore with ⟨hnone, -⟩ | ⟨x, place, hfind, hplace, heq⟩
    · have hfound := Store.find_isSome_iff.mpr ⟨r.className, hclass, Hierarchy.isA_refl _ _, hvisible⟩
      rw [Store.testRecord, hfound] at hnone
      cases hnone
    · rw [heq] at htest
      exact (Store.testRecord_erased_iff hfind hplace hvisible hclass).mp htest
  · intro hsole hown
    refine getObject_of_missing ?_ (hgone hsole)
    rw [hcached]
    cases hbefore : s.cached? r.className r.id with
    | none => simp
    | some x => simp [hown x hbefore]
  · intro x hx hne
    apply getObject_of_cached
    rw [hcached, hx, if_neg fun heq => hne (Option.some.inj heq)]

def labelledDestroyed : Workspace := (destroy ⟨0⟩ labelledHydrated).2

/-- The object of the only record of its class and id is destroyed. -/
theorem destroy_gone_labelled :
    destroy ⟨0⟩ labelledHydrated = (.ok (), labelledDestroyed)
      ∧ labelledDestroyed.world.store.testRecord "Person" "a" = false
      ∧ getObject "Person" "a" labelledDestroyed
        = (.error (.recordNotFound "a@Person"), labelledDestroyed) := by
  have hrecord : (labelledHydrated.world.object ⟨0⟩).storedRecord = ⟨"Person", "a"⟩ := by
    decide +kernel
  have hrun : destroy ⟨0⟩ labelledHydrated = (.ok (), labelledDestroyed) :=
    run_of_toOption (by decide +kernel)
  have hsole : labelledHydrated.world.store.Sole ⟨"Person", "a"⟩ := by decide +kernel
  have hcached : labelledHydrated.cached? "Person" "a" = some ⟨0⟩ := by decide +kernel
  obtain ⟨htest, -, hget, -⟩ := destroy_gone hrecord (by decide +kernel) hrun
  exact ⟨hrun, htest hsole, hget hsole fun x hx => Option.some.inj (hx.symm.trans hcached)⟩

/-- Two databases that hold one record, of which one includes the other. -/
def doubled : Store :=
  { labelled with databases := .ofList [
      ("near", { includes := ["people", "far"], records := .insert .empty ⟨"Person", "a"⟩ .empty }),
      ("far", { records := .insert .empty ⟨"Person", "a"⟩ .empty })] }

def doubledSession : Workspace :=
  { labelledSession with world := { labelledSession.world with store := doubled } }

def doubledMade : Workspace := (newObject "Person" "a" doubledSession).2

/-- Getting an object after it was destroyed gives an object that was cached for its record, and the
record is still found where another database holds it. -/
theorem not_gone_of_destroy :
    (¬ ∀ (s t : Workspace) (o : ObjectId) (r : RecordRef), s.Instance o →
      (s.world.object o).storedRecord = r → s.world.store.find r.className r.id = some r →
      destroy o s = (.ok (), t) →
      ∃ e u, getObject r.className r.id t = (.error e, u) ∧ e.isRecordNotFound = true)
    ∧ ¬ ∀ (s t : Workspace) (o : ObjectId) (r : RecordRef), s.Instance o →
      (s.world.object o).storedRecord = r → s.world.store.find r.className r.id = some r →
      destroy o s = (.ok (), t) → t.world.store.testRecord r.className r.id = false := by
  constructor
  · intro hclaim
    have hmake : newObject "Person" "a" twinHydrated = (.ok ⟨1⟩, twinMade) :=
      run_of_toOption (by decide +kernel)
    have hrun := Runs.start.call (s := labelledSession) (Call.get "Person" "a")
    obtain ⟨hkeeps, -⟩ := hrun.explained
      (remembers_empty namesTypes_labelledSession cached?_labelledSession)
    have hinstance := isInstance_newObject (hkeeps.types.named namesTypes_labelledSession) hmake
    have hdestroy : destroy ⟨1⟩ twinMade = (.ok (), (destroy ⟨1⟩ twinMade).2) :=
      run_of_toOption (by decide +kernel)
    obtain ⟨e, u, hget, -⟩ := hclaim twinMade _ ⟨1⟩ ⟨"Person", "a"⟩ hinstance (by decide +kernel)
      (by decide +kernel) hdestroy
    have hfound : (getObject "Person" "a" (destroy ⟨1⟩ twinMade).2).1.isOk = true := by
      decide +kernel
    rw [hget] at hfound
    simp [Except.isOk, Except.toBool] at hfound
  · intro hclaim
    have hmake : newObject "Person" "a" doubledSession = (.ok ⟨0⟩, doubledMade) :=
      run_of_toOption (by decide +kernel)
    have hnamed : doubledSession.registry.NamesTypes := namesTypes_labelledSession
    have hinstance := isInstance_newObject hnamed hmake
    have hdestroy : destroy ⟨0⟩ doubledMade = (.ok (), (destroy ⟨0⟩ doubledMade).2) :=
      run_of_toOption (by decide +kernel)
    have hgone := hclaim doubledMade _ ⟨0⟩ ⟨"Person", "a"⟩ hinstance (by decide +kernel)
      (by decide +kernel) hdestroy
    exact absurd hgone (by decide +kernel)

end Session

end RecordGraph
