import RecordGraph.Proofs.Object.Tracking
import RecordGraph.Proofs.Session.Building
import RecordGraph.Proofs.Session.Remembering
import RecordGraph.Proofs.Session.Rereading
import RecordGraph.Proofs.Session.Sparing

/-!
Deferred renames.  An object that gets another id keeps the one from before until an update renames its
record, and until then the store has the record under that one.  An update renames the record of its
object first; whether it succeeds or fails afterwards, the object then waits for no rename any more, and
its record is under its id.
-/

namespace RecordGraph

open RecordGraph.Computation Workspace

namespace World

/-- The id that the store has stays noted. -/
theorem storedRecord_rename (o : ObjectId) (id : String) (w : World) :
    ((o.rename id w).2.object o).storedRecord = (w.object o).storedRecord := by
  let noted := w.changeObject o fun object => { object with oldId := some object.storedId }
  change ((if id = (w.object o).id then w else noted.setId o id).object o).storedRecord = _
  split
  · rfl
  · by_cases ho : o.index < w.objects.size
    · have hsize : noted.objects.size = w.objects.size := Arena.size_change ..
      rw [object_setId (hsize ▸ ho), if_pos rfl, object_changeObject, if_pos ⟨rfl, ho⟩]
      rfl
    · have hmissing : ¬ o.index < (noted.setId o id).objects.size := by
        simpa [noted, setId, changeRegistry, changeObject] using ho
      rw [object_of_missing hmissing, object_of_missing ho]

theorem store_rename (o : ObjectId) (id : String) (w : World) : (o.rename id w).2.store = w.store := by
  change (if id = (w.object o).id then w else _).store = _
  split <;> rfl

theorem storedRecord_writeField (w : World) (o : ObjectId) (name : String) (f : Field) :
    ((w.writeField o name f).object o).storedRecord = (w.object o).storedRecord := by
  have hwrite : (w.writeField o name f).object o
      = (w.changeObject o fun object => object.write name f).object o := rfl
  obtain ⟨touched, heq⟩ := Object.write_eq (w.object o) name f
  rw [hwrite, object_changeObject, heq]
  split <;> rfl

end World

namespace Session

variable {s t : Workspace} {o x : ObjectId} {place : String} {others : List ObjectId}

/-! ### Updates -/

/-- An update takes up its object first. -/
theorem exists_persisted_eq (s : Workspace) (recursive : Bool) (o : ObjectId) :
    ∃ others, persisted s recursive o = o :: others ∧ o ∉ others := by
  have hfirst : [o] <+: persisted s recursive o := by
    cases recursive with
    | false => exact List.prefix_rfl
    | true => exact s.world.root_prefix_traverse o
  obtain ⟨others, hothers⟩ := hfirst
  have hnodup := nodup_persisted s recursive o
  rw [← hothers, List.singleton_append] at hnodup ⊢
  refine ⟨others, rfl, fun ho => ?_⟩
  exact (List.nodup_cons.mp hnodup).1 (List.mem_map_of_mem ho)

theorem persist_apply_cons {mode : Persistence} (hpersisted : persisted s mode.recursive o = o :: others) :
    persist mode o s = (applyRename o >>= fun _ => persistRest mode o others) s := by
  rw [persist_apply, hpersisted, List.foldlM_cons, prepare_eq]
  simp only [persistRest, bind_assoc]

/-- The other objects that an update reaches and that wait for a rename. -/
def otherWaiting (s : Workspace) (recursive : Bool) (o : ObjectId) : Nat :=
  (persisted s recursive o).countP fun x => decide (x ≠ o) && waits s x

/-- An update was made, and renamed as many records for its object as stated: the object waits for no
rename, its record is found under its id, and other records were renamed for objects that waited. -/
structure Settled (s : Workspace) (recursive : Bool) (o : ObjectId) (place : String) (own : Nat)
    (t : Workspace) : Prop where
  record : (t.world.object o).record = (s.world.object o).record
  oldId : (t.world.object o).oldId = none
  found : t.world.store.FoundIn (s.world.object o).record place
  lower : s.world.store.renames + own ≤ t.world.store.renames
  upper : t.world.store.renames ≤ s.world.store.renames + own + otherWaiting s recursive o

/-- What an update does about the rename that its object waits for. -/
inductive Settles (s : Workspace) (recursive : Bool) (o : ObjectId) (place : String) :
    Except Error ProxyId × Workspace → Prop
  /-- The store refuses to rename the record, and the update ends there. -/
  | rejected {oldId : String} {e : Error} (pending : (s.world.object o).oldId = some oldId)
      (differs : oldId ≠ (s.world.object o).id)
      (run : Store.renameRecord ⟨(s.world.object o).className, oldId⟩ (s.world.object o).id
        s.world.store = (.error e, s.world.store)) :
      Settles s recursive o place (.error e, s)
  /-- The store renames the record. -/
  | renamed {oldId : String} {store : Store} {x : Except Error ProxyId} {t : Workspace}
      (pending : (s.world.object o).oldId = some oldId) (differs : oldId ≠ (s.world.object o).id)
      (run : Store.renameRecord ⟨(s.world.object o).className, oldId⟩ (s.world.object o).id
        s.world.store = (.ok (s.world.object o).record, store))
      (settled : Settled s recursive o place 1 t) : Settles s recursive o place (x, t)
  /-- There is nothing to rename. -/
  | unneeded {x : Except Error ProxyId} {t : Workspace}
      (moot : ∀ oldId, (s.world.object o).oldId = some oldId → oldId = (s.world.object o).id)
      (settled : Settled s recursive o place 0 t) : Settles s recursive o place (x, t)

/-- The rename of an object is applied, for which as many records were renamed as stated: the object
waits for nothing any more, its record is under its id, and other objects are as they were. -/
structure Cleared (s : Workspace) (o : ObjectId) (place : String) (own : Nat) (t : Workspace) : Prop where
  object : ∀ x, t.world.object x
    = if x = o then { s.world.object o with oldId := none } else s.world.object x
  scope : s.world.store.SameScope t.world.store
  found : t.world.store.FoundIn (s.world.object o).record place
  renames : t.world.store.renames = s.world.store.renames + own

namespace Cleared

variable {u : Workspace} {own : Nat} (h : Cleared s o place own u)

include h

theorem self : u.world.object o = { s.world.object o with oldId := none } :=
  (h.object o).trans (if_pos rfl)

theorem other (hx : x ≠ o) : u.world.object x = s.world.object x := (h.object x).trans (if_neg hx)

theorem record : (u.world.object o).record = (s.world.object o).record := by
  rw [h.self]
  rfl

/-- Another object claims the record only if it did so before. -/
theorem claims (hx : x ≠ o) (hclaims : Claims u x o) : Claims s x o := by
  unfold Claims at hclaims
  rw [h.other hx, h.scope.hierarchy, h.self] at hclaims
  exact hclaims

theorem countP_waits {recursive : Bool} (hpersisted : persisted s recursive o = o :: others)
    (hothers : ∀ x ∈ others, x ≠ o) : others.countP (waits u) = otherWaiting s recursive o := by
  rw [otherWaiting, hpersisted, List.countP_cons]
  simp only [ne_eq, not_true_eq_false, decide_false, Bool.false_and, Bool.false_eq_true, if_false,
    Nat.add_zero]
  refine List.countP_congr fun x hx => ?_
  simp [waits, h.other (hothers x hx), hothers x hx]

/-- What is left of an update only does what other objects need. -/
theorem settled {mode : Persistence} {result : Except Error ProxyId}
    (hrun : persistRest mode o others u = (result, t))
    (hpersisted : persisted s mode.recursive o = o :: others) (hothers : ∀ x ∈ others, x ≠ o)
    (hfree : ∀ x ∈ others, ¬ Claims s x o) : Settled s mode.recursive o place own t := by
  have hfree' : ∀ x ∈ others, ¬ Claims u x o := fun x hx hclaims =>
    hfree x hx (h.claims (hothers x hx) hclaims)
  have hfound : u.world.store.FoundIn (u.world.object o).record place := h.record ▸ h.found
  have hspares : Spares u o place others t := (spares_persistRest mode hfree').run (.refl hfound) hrun
  refine ⟨?_, ?_, ?_, ?_, ?_⟩
  · rw [← h.record, Object.record, Object.record, hspares.className, hspares.id]
  · rcases hspares.oldId o with hnone | hsame
    · exact hnone
    · rw [hsame, h.self]
  · exact h.record ▸ hspares.found
  · exact h.renames ▸ hspares.lower
  · have hupper := hspares.upper
    rw [h.countP_waits hpersisted hothers] at hupper
    exact h.renames ▸ Nat.le_trans (Nat.le_add_right ..) hupper

end Cleared

/-- An object that waits for no rename has nothing to apply. -/
theorem cleared_of_settled (hsettled : (s.world.object o).oldId = none)
    (hfound : s.world.store.FoundIn (s.world.object o).record place) : Cleared s o place 0 s where
  object x := by
    split
    · rename_i hx
      rw [hx, ← hsettled]
    · rfl
  scope := .refl _
  found := hfound
  renames := rfl

theorem cleared_forget {oldId : String}
    (hfound : s.world.store.FoundIn (s.world.object o).record place) :
    Cleared s o place 0 (forget s o oldId) where
  object x := object_forget s o x oldId
  scope := .refl _
  found := hfound
  renames := rfl

/-- An update renames the record of its object first, if it has to. -/
theorem settles_persist {mode : Persistence}
    (hfound : s.world.store.FoundIn (s.world.object o).storedRecord place)
    (hfree : ∀ x ∈ persisted s mode.recursive o, x ≠ o → ¬ Claims s x o) :
    Settles s mode.recursive o place (persist mode o s) := by
  obtain ⟨others, hpersisted, ho⟩ := exists_persisted_eq s mode.recursive o
  have hothers : ∀ x ∈ others, x ≠ o := fun x hx heq => ho (heq ▸ hx)
  have hfree' : ∀ x ∈ others, ¬ Claims s x o := fun x hx =>
    hfree x (hpersisted ▸ List.mem_cons_of_mem o hx) (hothers x hx)
  have hsettled : ∀ {u own result t}, Cleared s o place own u →
      persistRest mode o others u = (result, t) → Settled s mode.recursive o place own t :=
    fun hcleared hrun => hcleared.settled hrun hpersisted hothers hfree'
  rw [persist_apply_cons hpersisted, bind_apply]
  have happlies := applies_applyRename s o
  generalize applyRename o s = outcome at happlies
  cases happlies with
  | unneeded hnone =>
    rw [Object.storedRecord_of_settled hnone] at hfound
    dsimp only
    rcases hrun : persistRest mode o others s with ⟨x, t⟩
    refine .unneeded (fun oldId hpending => ?_) (hsettled (cleared_of_settled hnone hfound) hrun)
    cases hnone.symm.trans hpending
  | @dropped oldId hpending hmoot =>
    rw [Object.storedRecord_of_pending hpending] at hfound
    -- the record is there, so that the id from before can only be that of the object
    obtain rfl : oldId = (s.world.object o).id := by
      refine hmoot.resolve_right fun hmissing => ?_
      rw [Store.testRecord, hfound.find] at hmissing
      cases hmissing
    dsimp only
    rcases hrun : persistRest mode o others (forget s o (s.world.object o).id) with ⟨x, t⟩
    refine .unneeded (fun other hother => ?_) (hsettled (cleared_forget hfound) hrun)
    cases hpending.symm.trans hother
    rfl
  | @applied oldId record renamed store hpending hdiffers hfind hrename =>
    rw [Object.storedRecord_of_pending hpending] at hfound
    cases hfound.find.symm.trans hfind
    obtain ⟨rfl, other, hplace, -, hconflict, rfl⟩ := Store.renameRecord_run hrename
    cases hfound.location.symm.trans hplace
    dsimp only
    rcases hrun : persistRest mode o others (forget (withStore s _) o oldId) with ⟨x, t⟩
    refine .renamed hpending hdiffers hrename (hsettled ⟨fun x => ?_, ?_, ?_, rfl⟩ hrun)
    · exact object_forget _ o x oldId
    · exact Store.sameScope_withRenamed ..
    · exact hfound.withRenamed hconflict
  | @rejected oldId record e hpending hdiffers hfind hrename =>
    rw [Object.storedRecord_of_pending hpending] at hfound
    cases hfound.find.symm.trans hfind
    exact .rejected hpending hdiffers hrename

/-! ### Runs -/

/-- The runs of calls on one object: renaming it, writing to its fields, and the updates of it that are
allowed. -/
inductive Uses (allowed : Workspace → Bool → Prop) (o : ObjectId) (s : Workspace) : Workspace → Prop
  | start : Uses allowed o s s
  | rename {t : Workspace} (h : Uses allowed o s t) (id : String) :
      Uses allowed o s (act (o.rename id) t).2
  | set {t : Workspace} (h : Uses allowed o s t) {name : String} (hname : name ≠ "id") (f : Field) :
      Uses allowed o s (act (o.set name f) t).2
  | update {t : Workspace} (h : Uses allowed o s t) (policy : Policy) (recursive : Bool)
      (hallowed : allowed t recursive) : Uses allowed o s (updateWith policy o recursive t).2

/-- No other object that an update reaches waits to be renamed from the id of its object. -/
def Undisputed (o : ObjectId) (s : Workspace) (recursive : Bool) : Prop :=
  ∀ x ∈ persisted s recursive o, x ≠ o → ¬ Claims s x o

instance (o : ObjectId) (s : Workspace) (recursive : Bool) : Decidable (Undisputed o s recursive) :=
  inferInstanceAs (Decidable (∀ x ∈ persisted s recursive o, x ≠ o → ¬ Claims s x o))

/-- The store has the record of an object, under the id from before its first rename that no update has
applied yet. -/
def Tracked (o : ObjectId) (place : String) (s : Workspace) : Prop :=
  s.world.store.FoundIn (s.world.object o).storedRecord place

/-- An object that a call hydrated waits for no rename: the store has its record if its class and id
lead to it. -/
theorem tracked_of_call {base : Workspace} (call : Call) (hrun : (call.run base).2 = s)
    (hmade : base.world.objects.size ≤ o.index)
    (hstored : s.world.store.FoundIn (s.world.object o).record place) : Tracked o place s := by
  have hpopulates : base.Populates s := hrun ▸ call.preserves_run base .refl
  unfold Tracked
  rwa [Object.storedRecord_of_settled (hpopulates.oldId_of_new hmade)]

theorem undisputed_of_not_recursive (o : ObjectId) (s : Workspace) : Undisputed o s false := by
  intro x hx hne
  exact absurd (List.mem_singleton.mp hx) hne

theorem otherWaiting_of_not_recursive (s : Workspace) (o : ObjectId) : otherWaiting s false o = 0 := by
  simp [otherWaiting, persisted]

/-- A new id is noted beside the one that the store has. -/
theorem tracked_rename (h : Tracked o place t) (id : String) :
    Tracked o place (act (o.rename id) t).2 := by
  unfold Tracked
  rw [act_apply, World.storedRecord_rename, World.store_rename]
  exact h

theorem tracked_set (h : Tracked o place t) {name : String} (hname : name ≠ "id") (f : Field) :
    Tracked o place (act (o.set name f) t).2 := by
  have hheader : ((o.set name f t.world).2.object o).storedRecord = (t.world.object o).storedRecord
      ∧ (o.set name f t.world).2.store = t.world.store := by
    rcases World.set_cases t.world o name f with hset | ⟨hid, -⟩ | ⟨-, g, -, hset⟩
    · rw [hset]
      exact ⟨rfl, rfl⟩
    · exact absurd hid hname
    · rw [hset]
      exact ⟨World.storedRecord_writeField .., rfl⟩
  unfold Tracked
  rw [act_apply, hheader.1, hheader.2]
  exact h

theorem Settles.tracked {recursive : Bool} {outcome : Except Error ProxyId × Workspace}
    (h : Settles s recursive o place outcome) (hs : Tracked o place s) : Tracked o place outcome.2 := by
  have hsettled : ∀ {own t}, Settled s recursive o place own t → Tracked o place t := by
    intro own t hsettled
    unfold Tracked
    rw [Object.storedRecord_of_settled hsettled.oldId, hsettled.record]
    exact hsettled.found
  cases h with
  | rejected => exact hs
  | renamed _ _ _ h => exact hsettled h
  | unneeded _ h => exact hsettled h

/-- An update settles what its object waits for. -/
theorem settles_updateWith (h : Tracked o place s) (policy : Policy) {recursive : Bool}
    (hfree : Undisputed o s recursive) :
    Settles s recursive o place (updateWith policy o recursive s) := by
  let mode : Persistence := { policy, recursive, createOnly := false }
  have hpersist : Settles s mode.recursive o place (persist mode o s) := settles_persist h hfree
  exact hpersist

theorem tracked_of_uses (hs : Tracked o place s) (h : Uses (Undisputed o) o s t) :
    Tracked o place t := by
  induction h with
  | start => exact hs
  | rename _ id ih => exact tracked_rename ih id
  | set _ hname f ih => exact tracked_set ih hname f
  | update _ policy _ hfree ih => exact (settles_updateWith ih policy hfree).tracked ih

/-- The store has the record of an object that was hydrated from it.  Over all runs of calls on an object
whose record the store has, whether they succeed or fail, the store has the record under the id that the
object waits to be renamed from, or else under its id.  An update renames the record exactly once if
these ids differ and the store does not refuse, in which case it ends there and changes nothing; other
records are renamed at most for other objects that it reaches and that wait for it, of which there are
none unless it is recursive. -/
theorem uses_tracked (o : ObjectId) (place : String) :
    (∀ (call : Call) (base s : Workspace), (call.run base).2 = s →
        base.world.objects.size ≤ o.index →
        s.world.store.FoundIn (s.world.object o).record place → Tracked o place s)
      ∧ ∀ s t, Tracked o place s → Uses (Undisputed o) o s t →
        Tracked o place t
          ∧ (∀ policy recursive, Undisputed o t recursive →
            Settles t recursive o place (updateWith policy o recursive t))
          ∧ Undisputed o t false ∧ otherWaiting t false o = 0 := by
  constructor
  · intro call base s hrun hmade hstored
    exact tracked_of_call call hrun hmade hstored
  · intro s t hs hrun
    have htracked := tracked_of_uses hs hrun
    refine ⟨htracked, ?_, undisputed_of_not_recursive o t, otherWaiting_of_not_recursive t o⟩
    exact fun policy _ hfree => settles_updateWith htracked policy hfree

def labelledRenamed : Workspace := (act (ObjectId.rename ⟨0⟩ "b") labelledHydrated).2

/-- The object of a record is renamed, and then updated. -/
theorem uses_tracked_labelled :
    Tracked ⟨0⟩ "near" labelledHydrated
      ∧ labelledRenamed.world.store.FoundIn ⟨"Person", "a"⟩ "near"
      ∧ Settles labelledRenamed true ⟨0⟩ "near" (updateWith .pedantic ⟨0⟩ true labelledRenamed) := by
  obtain ⟨hhydrated, hruns⟩ := uses_tracked ⟨0⟩ "near"
  have hcall : ((Call.get "Person" "a").run labelledSession).2 = labelledHydrated :=
    state_bind_of_reads (fun _ _ => rfl) labelledSession
  have htracked : Tracked ⟨0⟩ "near" labelledHydrated :=
    hhydrated _ _ _ hcall (by decide +kernel) (by decide +kernel)
  have hstored : (labelledRenamed.world.object ⟨0⟩).storedRecord = ⟨"Person", "a"⟩ := by decide +kernel
  obtain ⟨hfound, hsettles, -⟩ := hruns _ _ htracked (Uses.start.rename "b")
  refine ⟨htracked, ?_, hsettles .pedantic true (by decide +kernel)⟩
  rw [← hstored]
  exact hfound

/-- An object that was made for a record which is loaded as well, and that waits to be renamed. -/
def rivalRenamed : Workspace :=
  (act (ObjectId.rename ⟨0⟩ "k") (newObject "Person" "a" labelledSession).2).2

def rivalHydrated : Workspace := (getObject "Person" "a" rivalRenamed).2

def rivalRelated : Workspace := (act (ObjectId.set ⟨1⟩ "peer" (.object ⟨0⟩)) rivalHydrated).2

/-- A recursive update can rename the record of its object, for another object that it reaches and that
waits to be renamed from the same id. -/
theorem not_tracked_of_rival :
    (¬ ∀ (b s t : Workspace) (o : ObjectId) (r : RecordRef) (place : String),
      b.cached? r.className r.id = none → (∀ x, b.world.store.Visible x → x = r) →
      getObject r.className r.id b = (.ok o, s) → Tracked o place s →
      Uses (fun _ _ => True) o s t → Tracked o place t)
    ∧ ¬ ∀ (b s t : Workspace) (o : ObjectId) (r : RecordRef) (place : String),
      b.cached? r.className r.id = none → (∀ x, b.world.store.Visible x → x = r) →
      getObject r.className r.id b = (.ok o, s) → Tracked o place s →
      Uses (fun _ _ => True) o s t → (t.world.object o).oldId = none →
      ∀ policy recursive,
        (updateWith policy o recursive t).2.world.store.renames = t.world.store.renames := by
  have honly : ∀ x, rivalRenamed.world.store.Visible x → x = ⟨"Person", "a"⟩ := by
    intro x hx
    have hall : rivalRenamed.world.store.allRecords = [⟨"Person", "a"⟩] := by decide +kernel
    exact List.mem_singleton.mp (hall ▸ hx.mem_allRecords)
  have hget : getObject "Person" "a" rivalRenamed = (.ok ⟨1⟩, rivalHydrated) :=
    run_of_toOption (by decide +kernel)
  have hcached : rivalRenamed.cached? "Person" "a" = none := by decide +kernel
  have htracked : Tracked ⟨1⟩ "near" rivalHydrated := by
    unfold Tracked
    decide +kernel
  have hrelated : Uses (fun _ _ => True) ⟨1⟩ rivalHydrated rivalRelated :=
    Uses.start.set (by decide) _
  constructor
  · intro hclaim
    have hlost := hclaim rivalRenamed rivalHydrated _ ⟨1⟩ ⟨"Person", "a"⟩ "near" hcached honly hget
      htracked (hrelated.update .permissive true trivial)
    unfold Tracked at hlost
    exact absurd hlost (by decide +kernel)
  · intro hclaim
    have hsame := hclaim rivalRenamed rivalHydrated rivalRelated ⟨1⟩ ⟨"Person", "a"⟩ "near" hcached
      honly hget htracked hrelated (by decide +kernel) .permissive true
    exact absurd hsame (by decide +kernel)

end Session

end RecordGraph
