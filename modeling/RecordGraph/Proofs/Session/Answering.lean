import RecordGraph.Proofs.Session.Errands

/-!
Whether lookups answer with the object that was asked for.  Objects carry their ids, and the cache has
copies of them as keys.  A rename leaves the id of before with the object until the cache follows; an
id that is set does not, so that lookups may find an object under an id which it does not have.
-/

namespace RecordGraph

open RecordGraph.Computation Workspace

namespace Workspace

/-- Every object that a lookup gives has the id that was asked for, or waits to be renamed from it. -/
def Answers (s : Workspace) : Prop :=
  ∀ className id o t, Session.getObject className id s = (.ok o, t) →
    (t.world.object o).id = id ∨ (t.world.object o).oldId = some id

/-- Every cached object exists, and is cached under names of its type and the id that it has in the
store. -/
def Filed (s : Workspace) : Prop :=
  ∀ className id o, s.cached? className id = some o → o.index < s.world.objects.size
    ∧ className ∈ s.classesOf o ∧ (s.world.object o).storedId = id

variable {s t : Workspace} {o x : ObjectId} {className id : String}

theorem filed_empty (h : ∀ className id, s.cached? className id = none) : s.Filed := by
  intro className id o ho
  rw [h] at ho
  cases ho

namespace Filed

/-- Nothing comes into the cache, and what is cached keeps its type and its stored id. -/
theorem mono (h : s.Filed) (hobjects : s.world.objects.size ≤ t.world.objects.size)
    (hcached : ∀ className id o, t.cached? className id = some o →
      s.cached? className id = some o ∧ (t.world.object o).type = (s.world.object o).type
        ∧ (t.world.object o).storedId = (s.world.object o).storedId) : t.Filed := by
  intro className id o ho
  obtain ⟨hold, htype, hstored⟩ := hcached className id o ho
  obtain ⟨hbound, hclass, hid⟩ := h className id o hold
  refine ⟨Nat.lt_of_lt_of_le hbound hobjects, ?_, hstored.trans hid⟩
  rw [classesOf, htype]
  exact hclass

theorem idle (h : s.Filed) (hidles : s.Idles t) : t.Filed := by
  refine h.mono hidles.objects fun className id o ho => ?_
  rw [hidles.cached?] at ho
  obtain ⟨htype, hid, holdId⟩ := hidles.header o (h className id o ho).1
  exact ⟨ho, htype, by rw [Object.storedId, hid, holdId]; rfl⟩

theorem maintain (h : s.Filed) (hmaintains : s.Maintains t) : t.Filed := h.idle hmaintains.idles

/-- A new object is cached under its id. -/
theorem make (h : s.Filed) (type : ClassType) (id : String) : (s.make type id).Filed := by
  intro className id' o ho
  rcases cached?_make_eq_some ho with ⟨rfl, hclass, rfl⟩ | hold
  · rw [classesOf, object_make_new, size_make]
    exact ⟨Nat.lt_succ_self _, hclass, rfl⟩
  · obtain ⟨hbound, hclass, hid⟩ := h className id' o hold
    rw [classesOf, object_make_of_lt hbound, size_make]
    exact ⟨Nat.lt_succ_of_lt hbound, hclass, hid⟩

theorem populates (h : s.Filed) (hpopulates : s.Populates t) : t.Filed := by
  induction hpopulates with
  | refl => exact h
  | maintain _ step ih => exact ih.maintain step
  | make _ _ _ ih => exact ih.make _ _

/-- An object that waits for no rename is cached. -/
theorem cache (h : s.Filed) (ho : o.index < s.world.objects.size)
    (hsettled : (s.world.object o).oldId = none) : (s.cache o).Filed := by
  intro className id x hx
  rcases cached?_cache_eq_some hx with ⟨rfl, hclass, rfl⟩ | hold
  · exact ⟨ho, hclass, by rw [Object.storedId]; exact hsettled ▸ rfl⟩
  · exact h className id x hold

/-- Something leaves the cache. -/
theorem evict (h : s.Filed) (o : ObjectId) (id : String) : (s.evict o id).Filed := by
  refine h.mono (Nat.le_refl _) fun className id' x hx => ⟨?_, rfl, rfl⟩
  exact Session.cached?_of_evict hx

/-- An object that left the cache under its stored id is not cached any more. -/
theorem evict_stored (h : s.Filed) (o : ObjectId) (className id : String) :
    (s.evict o (s.world.object o).storedId).cached? className id ≠ some o := by
  intro ho
  rw [Session.cached?_evict] at ho
  split at ho
  · cases ho
  · rename_i hkept
    obtain ⟨-, hclass, rfl⟩ := h className id o ho
    exact hkept ⟨hclass, rfl, ho⟩

end Filed

/-- An object that is not cached waits for no rename any more. -/
theorem Filed.clear (h : s.Filed) (hnone : ∀ className id, s.cached? className id ≠ some o) :
    Filed { s with world := s.world.changeObject o fun object => { object with oldId := none } } := by
  refine h.mono (Nat.le_of_eq (Arena.size_change ..).symm) fun className id x hx => ⟨hx, ?_⟩
  have hne : x ≠ o := fun heq => hnone className id (heq ▸ hx)
  rw [World.object_changeObject, if_neg fun hsame => hne hsame.1]
  exact ⟨rfl, rfl⟩

end Workspace

namespace World

variable {w : World} {o : ObjectId}

/-- A rename changes neither types nor the ids that the store has. -/
theorem header_rename (ho : o.index < w.objects.size) (x : ObjectId) (id : String) :
    ((o.rename id w).2.object x).type = (w.object x).type
      ∧ ((o.rename id w).2.object x).storedId = (w.object x).storedId := by
  let noted := w.changeObject o fun object => { object with oldId := some object.storedId }
  have hsize : noted.objects.size = w.objects.size := Arena.size_change ..
  have hself : noted.object o = { w.object o with oldId := some (w.object o).storedId } := by
    rw [object_changeObject, if_pos ⟨rfl, ho⟩]
  change (World.object (if id = (w.object o).id then w else noted.setId o id) x).type = _
    ∧ (World.object (if id = (w.object o).id then w else noted.setId o id) x).storedId = _
  split
  · exact ⟨rfl, rfl⟩
  · rw [object_setId (hsize ▸ ho)]
    by_cases hx : x = o
    · rw [if_pos hx, hself, hx]
      exact ⟨rfl, rfl⟩
    · have hother : noted.object x = w.object x := by
        rw [object_changeObject, if_neg fun hsame => hx hsame.1]
      rw [if_neg hx, hother]
      exact ⟨rfl, rfl⟩

theorem size_rename (w : World) (o : ObjectId) (id : String) :
    (o.rename id w).2.objects.size = w.objects.size := by
  change (World.objects (if id = (w.object o).id then w else _)).size = _
  split
  · rfl
  · exact (Arena.size_change ..).trans (Arena.size_change ..)

/-- Setting the id of an object either fails or takes a text as the new id. -/
theorem set_id_cases (w : World) (o : ObjectId) (f : Field) :
    (∃ id, f = .value (.text id) ∧ o.set "id" f w = (.ok (), w.setId o id))
      ∨ (o.set "id" f w).2 = w := by
  unfold ObjectId.set
  rw [if_pos rfl]
  split
  · exact Or.inl ⟨_, rfl, rfl⟩
  · exact Or.inr (by rw [Action.ask_apply])

end World

namespace Session

variable {s t : Workspace} {o x : ObjectId} {className id : String}

/-! ### Looking objects up -/

/-- The object of a record has the id of the record, or is cached for it. -/
theorem objectOf_storedId {p : ProxyId} {new : Bool} (h : s.Filed)
    (hrun : objectOf p s = (.ok (o, new), t)) :
    t.Filed ∧ o.index < t.world.objects.size
      ∧ (t.world.object o).storedId = (s.world.recordOf p).id := by
  have hfiled := h.populates ((preserves_objectOf p).run .refl hrun)
  rw [objectOf, bind_of_ok (get_apply s)] at hrun
  cases hcached : s.cached? (s.world.recordOf p).className (s.world.recordOf p).id with
  | some x =>
    simp only [hcached] at hrun
    obtain ⟨heq, rfl⟩ := Prod.mk.inj hrun
    cases heq
    obtain ⟨hbound, -, hid⟩ := h _ _ _ hcached
    exact ⟨hfiled, hbound, hid⟩
  | none =>
    simp only [hcached] at hrun
    obtain ⟨x, s₁, hmake, hpure⟩ := bind_eq_ok.mp hrun
    obtain ⟨heq, rfl⟩ := Prod.mk.inj hpure
    cases heq
    obtain ⟨type, -, rfl, rfl⟩ := instantiate_run hmake
    rw [object_make_new, size_make]
    exact ⟨hfiled, Nat.lt_succ_self _, rfl⟩

/-- Loading fields leaves the ids of objects alone. -/
theorem hydrate_storedId {p : ProxyId} (h : s.Filed) (hrun : hydrate p s = (.ok o, t)) :
    (t.world.object o).storedId = (s.world.recordOf p).id := by
  obtain ⟨⟨x, new⟩, u, hfind, hrest⟩ := bind_eq_ok.mp hrun
  obtain ⟨hfiled, hbound, hid⟩ := objectOf_storedId h hfind
  cases new with
  | false =>
    obtain ⟨heq, rfl⟩ := Prod.mk.inj hrest
    cases heq
    exact hid
  | true =>
    simp only [if_true] at hrest
    rw [bind_of_ok (get_apply u)] at hrest
    obtain ⟨_, v, hload, hpure⟩ := bind_eq_ok.mp hrest
    obtain ⟨heq, rfl⟩ := Prod.mk.inj hpure
    cases heq
    obtain ⟨-, hsame, holdId⟩ := Populates.header ((preserves_loadPending _ _).run .refl hload) hbound
    rw [← hid, Object.storedId, Object.storedId, hsame, holdId]

theorem getObject_storedId (h : s.Filed) (hrun : getObject className id s = (.ok o, t)) :
    (t.world.object o).storedId = id := by
  rw [getObject, bind_of_ok (get_apply s)] at hrun
  cases hcached : s.cached? className id with
  | some x =>
    simp only [hcached] at hrun
    obtain ⟨heq, rfl⟩ := Prod.mk.inj hrun
    cases heq
    exact (h _ _ _ hcached).2.2
  | none =>
    simp only [hcached] at hrun
    obtain ⟨p, u, hrecord, hhydrate⟩ := bind_eq_ok.mp hrun
    have hfiled := h.maintain ((preserves_record className id).run (.refl s) hrecord)
    obtain ⟨-, -, hfind, -⟩ := looks_record hrecord
    obtain ⟨-, hid, -⟩ := Store.find_eq_some hfind
    rw [hydrate_storedId hfiled hhydrate, hid]

/-- Where objects are cached under the ids that they have in the store, lookups answer. -/
theorem answers_of_filed (h : s.Filed) : s.Answers := by
  intro className id o t hrun
  have hid := getObject_storedId h hrun
  rw [Object.storedId] at hid
  cases hpending : (t.world.object o).oldId with
  | none =>
    rw [hpending] at hid
    exact Or.inl hid
  | some oldId =>
    rw [hpending] at hid
    exact Or.inr (congrArg some hid)

/-! ### Persisting and destroying -/

theorem filed_of_maintains {α : Type} {m : SessionM α} (hm : ∀ t : Workspace, Preserves t.Maintains m) :
    Preserves Filed m :=
  fun t ht => ht.maintain (hm t t (.refl t))

theorem forget_eq (s : Workspace) (o : ObjectId) (oldId : String) :
    forget s o oldId = { s.evict o oldId with
      world := s.world.changeObject o fun object => { object with oldId := none } } := by
  have hclasses : classesOf { s with
      world := s.world.changeObject o fun object => { object with oldId := none } } o
      = s.classesOf o := by
    rw [classesOf, classesOf, World.object_changeObject]
    split <;> rfl
  rw [forget, evict, evict, hclasses]

/-- The id from before the rename was the one that the object was cached under. -/
theorem filed_forget {oldId : String} (h : s.Filed) (hpending : (s.world.object o).oldId = some oldId) :
    (forget s o oldId).Filed := by
  have hstored : (s.world.object o).storedId = oldId := by
    rw [Object.storedId, hpending]
    rfl
  rw [forget_eq]
  exact (h.evict o oldId).clear (hstored ▸ h.evict_stored o)

theorem filed_applyRename (x : ObjectId) : Preserves Filed (applyRename x) := by
  refine preserves_applyRename (fun t oldId hpending h => filed_forget h hpending) ?_
  intro t oldId _ _ store hpending _ _ _ h
  have hstored : (withStore t store).Filed := h
  exact filed_forget hstored hpending

theorem filed_prepare (targets : Targets) (x : ObjectId) : Preserves Filed (prepare targets x) := by
  refine (filed_applyRename x).bind fun _ => reads_get.preserves.bind fun t => ?_
  dsimp only
  split
  · exact preserves_pure _
  · exact (filed_of_maintains fun _ => preserves_targetFor x).bind fun _ => preserves_pure _

theorem oldId_forget {y : ObjectId} {oldId : String} (hy : y = x ∨ (s.world.object y).oldId = none) :
    ((forget s x oldId).world.object y).oldId = none := by
  rw [object_forget]
  split
  · rfl
  · rename_i hne
    exact hy.resolve_left hne

/-- An object whose rename was applied waits for none, and no other object comes to wait for one. -/
theorem oldId_applyRename (hrun : applyRename x s = (.ok (), t)) {y : ObjectId}
    (hy : y = x ∨ (s.world.object y).oldId = none) : (t.world.object y).oldId = none := by
  have happlies := applies_applyRename s x
  rw [hrun] at happlies
  cases happlies with
  | unneeded hsettled =>
    rcases hy with rfl | hy
    · exact hsettled
    · exact hy
  | dropped => exact oldId_forget hy
  | @applied _ _ _ store =>
    have hy' : y = x ∨ ((withStore s store).world.object y).oldId = none := hy
    exact oldId_forget hy'

theorem oldId_prepare {targets targets' : Targets} (hrun : prepare targets x s = (.ok targets', t))
    {y : ObjectId} (hy : y = x ∨ (s.world.object y).oldId = none) :
    (t.world.object y).oldId = none := by
  obtain ⟨u, hrename, -, hcases⟩ := prepare_run hrun
  have hsettled := oldId_applyRename hrename hy
  rcases hcases with ⟨-, -, rfl⟩ | ⟨-, target, htarget, -⟩
  · exact hsettled
  · rwa [(targetFor_run htarget).1.object]

/-- Prepared objects wait for no rename. -/
theorem oldId_foldlM_prepare {xs : List ObjectId} {targets : Targets}
    (hrun : xs.foldlM prepare .empty s = (.ok targets, t)) :
    ∀ x ∈ xs, (t.world.object x).oldId = none := by
  refine foldlM_run (fun done _ t => ∀ x ∈ done, (t.world.object x).oldId = none) hrun (by simp) ?_
  intro done acc x next a b _ hdone hstep y hy
  refine oldId_prepare hstep ?_
  rcases List.mem_append.mp hy with hy | hy
  · exact Or.inr (hdone y hy)
  · exact Or.inl (List.mem_singleton.mp hy)

/-- Objects exist, and wait for no rename. -/
def Rest (xs : List ObjectId) (s : Workspace) : Prop :=
  ∀ x ∈ xs, x.index < s.world.objects.size ∧ (s.world.object x).oldId = none

theorem filed_writeObject {xs : List ObjectId} (mode : Persistence) (targets : Targets) (hx : x ∈ xs) :
    Preserves (fun t => t.Filed ∧ Rest xs t) (writeObject mode targets x) := by
  have hkeep : ∀ {α : Type} {m : SessionM α}, (∀ t : Workspace, Preserves t.Maintains m) →
      Preserves (fun t => t.Filed ∧ Rest xs t) m := by
    intro α m hm t h
    have hmaintains := hm t t (.refl t)
    refine ⟨h.1.maintain hmaintains, fun y hy => ?_⟩
    obtain ⟨hbound, hsettled⟩ := h.2 y hy
    exact ⟨hmaintains.world.objects ▸ hbound, (hmaintains.world.oldId y).trans hsettled⟩
  have hcache : Preserves (fun t => t.Filed ∧ Rest xs t) (modify fun s => s.cache x) :=
    fun t h => ⟨h.1.cache (h.2 x hx).1 (h.2 x hx).2, h.2⟩
  refine reads_get.preserves.bind fun t => ?_
  dsimp only
  split
  · exact preserves_pure _
  · split
    · exact (hkeep fun _ => preserves_writeFields _ _ _ _).bind fun _ =>
        (hkeep fun _ => preserves_act x.preserves_clearTouched).bind fun _ => hcache
    · exact hcache

/-- What is persisted is cached under the ids that it has by then. -/
theorem filed_persist (mode : Persistence) (h : s.Filed)
    (hexist : ∀ x ∈ persisted s mode.recursive o, x.index < s.world.objects.size) :
    (persist mode o s).2.Filed := by
  rw [persist_apply]
  have hprepare : Preserves Filed ((persisted s mode.recursive o).foldlM prepare .empty) :=
    .foldlM (fun targets x _ => filed_prepare targets x) .empty
  have hprepared := hprepare s h
  rcases hrun : (persisted s mode.recursive o).foldlM prepare .empty s with ⟨e | targets, t⟩
  · rw [bind_of_error hrun]
    rwa [hrun] at hprepared
  · rw [bind_of_ok hrun]
    rw [hrun] at hprepared
    have hsize := (foldlM_prepare_run hrun).1.objects
    have hrest : Rest (persisted s mode.recursive o) t := fun x hx =>
      ⟨hsize ▸ hexist x hx, oldId_foldlM_prepare hrun x hx⟩
    have hobjects : Preserves (fun t => t.Filed ∧ Rest (persisted s mode.recursive o) t)
        ((persisted s mode.recursive o).forM (writeObject mode targets)) :=
      .forM fun x hx => filed_writeObject mode targets hx
    have hwritten := hobjects.bind fun _ => (reads_rootProxy targets o).preserves
    exact (hwritten t ⟨hprepared, hrest⟩).1

theorem filed_destroy (o : ObjectId) (h : s.Filed) : (destroy o s).2.Filed := by
  -- the object leaves the cache before it is noted that it waits for no rename
  have hdrop : ∀ t : Workspace, t.Filed → (dropFromCache o (t.world.object o) t).2.Filed := by
    intro t ht
    rw [dropFromCache, bind_of_ok (modify_apply _ t)]
    have hevicted := ht.evict o (t.world.object o).id
    cases hpending : (t.world.object o).oldId with
    | none => exact hevicted
    | some oldId =>
      have hstored : (t.world.object o).storedId = oldId := by
        rw [Object.storedId, hpending]
        rfl
      exact (hevicted.evict o oldId).clear (hstored ▸ hevicted.evict_stored o)
  rw [destroy_apply]
  split
  · exact hdrop s h
  · rename_i r _
    rcases hrun : Store.destroyRecord r s.world.store with ⟨e | done, store⟩
    · rw [bind_of_error (onStore_of_run hrun)]
      exact h
    · rw [bind_of_ok (onStore_of_run hrun)]
      exact hdrop (withStore s store) h

/-! ### Runs -/

/-- What can be asked of a session and its objects, and what happens to it between that. -/
inductive Request
  | call (c : Call)
  | chore (c : Chore)
  | set (o : ObjectId) (name : String) (f : Field)
  | rename (o : ObjectId) (id : String)
  /-- Anything that neither caches nor renames objects: making them, changing the store, picking up
  classes. -/
  | idle (step : Workspace → Workspace) (idles : ∀ s : Workspace, s.Idles (step s))

namespace Request

/-- What a request makes of a workspace, whether it succeeds or fails. -/
def run (s : Workspace) : Request → Workspace
  | .call c => (c.run s).2
  | .chore c => (c.run s).2
  | .set o name f => (act (o.set name f) s).2
  | .rename o id => (act (o.rename id) s).2
  | .idle step _ => step s

/-- The objects that a request is about were made. -/
def Exists (s : Workspace) : Request → Prop
  | .chore c => ∀ x ∈ c.objects s, x.index < s.world.objects.size
  | .set o _ _ | .rename o _ => o.index < s.world.objects.size
  | .call _ | .idle _ _ => True

instance (s : Workspace) : (q : Request) → Decidable (q.Exists s)
  | .chore c => inferInstanceAs (Decidable (∀ x ∈ c.objects s, x.index < s.world.objects.size))
  | .set o _ _ | .rename o _ => inferInstanceAs (Decidable (o.index < s.world.objects.size))
  | .call _ | .idle _ _ => isTrue trivial

/-- A request sets the id of an object that waits for no rename, while the object is cached under
another id. -/
def Strays (s : Workspace) : Request → Prop
  | .set o name f => name = "id" ∧ (s.world.object o).oldId = none
    ∧ ∃ id, f = .value (.text id) ∧ ∃ className other, s.cached? className other = some o ∧ other ≠ id
  | _ => False

/-- A condition holds of each of some requests in its turn. -/
def All (P : Workspace → Request → Prop) : Workspace → List Request → Prop
  | _, [] => True
  | s, q :: qs => P s q ∧ All P (q.run s) qs

instance decidableAll {P : Workspace → Request → Prop} [∀ s q, Decidable (P s q)] (s : Workspace) :
    (qs : List Request) → Decidable (All P s qs)
  | [] => isTrue trivial
  | q :: qs =>
    letI := decidableAll (P := P) (q.run s) qs
    inferInstanceAs (Decidable (P s q ∧ All P (q.run s) qs))

theorem filed_chore (c : Chore) (h : s.Filed)
    (hexist : ∀ x ∈ c.objects s, x.index < s.world.objects.size) : (c.run s).2.Filed := by
  cases c with
  | add o recursive =>
    rw [Chore.state_run_add]
    exact filed_persist _ h hexist
  | update policy o recursive =>
    rw [Chore.state_run_update]
    exact filed_persist _ h hexist
  | destroy o =>
    rw [Chore.run]
    exact filed_destroy o h

theorem filed_setId {id : String} (h : s.Filed) (ho : o.index < s.world.objects.size)
    (hstays : (s.world.object o).oldId = none →
      ∀ className other, s.cached? className other = some o → other = id) :
    Filed { s with world := s.world.setId o id } := by
  intro className other x hx
  obtain ⟨hbound, hclass, hid⟩ := h className other x hx
  have hsize : (s.world.setId o id).objects.size = s.world.objects.size := Arena.size_change ..
  refine ⟨hsize.symm ▸ hbound, ?_⟩
  rw [classesOf]
  dsimp only
  rw [World.object_setId ho]
  split
  · rename_i hsame
    subst hsame
    refine ⟨hclass, ?_⟩
    cases hpending : (s.world.object x).oldId with
    | none =>
      rw [hstays hpending className other hx]
      simp [Object.storedId, hpending]
    | some oldId =>
      rw [Object.storedId, hpending] at hid
      simpa [Object.storedId, hpending] using hid
  · exact ⟨hclass, hid⟩

/-- A request that does not let an object stray keeps objects where lookups expect them. -/
theorem filed_run (q : Request) (h : s.Filed) (hexist : q.Exists s) (hstays : ¬ q.Strays s) :
    (q.run s).Filed := by
  cases q with
  | call c => exact h.populates (c.preserves_run s .refl)
  | chore c => exact filed_chore c h hexist
  | set o name f =>
    by_cases hname : name = "id"
    · subst hname
      rw [run, act_apply]
      rcases World.set_id_cases s.world o f with ⟨id, rfl, hset⟩ | hset
      · rw [hset]
        refine filed_setId h hexist fun hsettled className other hcached => ?_
        exact Decidable.byContradiction fun hne =>
          hstays ⟨rfl, hsettled, id, rfl, className, other, hcached, hne⟩
      · rw [hset]
        exact h
    · exact h.idle (idles_set s o f hname)
  | rename o id =>
    refine h.mono (Nat.le_of_eq (World.size_rename s.world o id).symm) fun className other x hx => ?_
    exact ⟨hx, World.header_rename hexist x id⟩
  | idle step idles => exact h.idle (idles s)

/-- An object that strays is found under an id that it neither has nor waits to be renamed from. -/
theorem not_answers_of_strays (q : Request) (hexist : q.Exists s) (hstrays : q.Strays s) :
    ¬ (q.run s).Answers := by
  cases q with
  | set o name f =>
    obtain ⟨rfl, hsettled, id, rfl, className, other, hcached, hne⟩ := hstrays
    intro hanswers
    have hrun : Request.run s (.set o "id" (.value (.text id)))
        = { s with world := s.world.setId o id } := rfl
    have hobject : (s.world.setId o id).object o = { s.world.object o with id } := by
      rw [World.object_setId hexist, if_pos rfl]
    rw [hrun] at hanswers
    rcases hanswers className other o _ (getObject_of_cached hcached) with hid | hpending
    · rw [hobject] at hid
      exact hne hid.symm
    · rw [hobject] at hpending
      cases hsettled.symm.trans hpending
  | call _ => exact absurd hstrays id
  | chore _ => exact absurd hstrays id
  | rename _ _ => exact absurd hstrays id
  | idle _ _ => exact absurd hstrays id

end Request

/-- In a session that starts with nothing cached, every lookup all along a run of requests answers with
an object that has the id which was asked for, or waits to be renamed from it, exactly if no request
sets the id of an object that waits for no rename while it is cached under another id. -/
theorem answered_throughout_iff (qs : List Request) (hempty : ∀ className id, s.cached? className id = none)
    (hexist : Request.All (fun t q => q.Exists t) s qs) :
    s.Answers ∧ (Request.All (fun t q => (q.run t).Answers) s qs
      ↔ Request.All (fun t q => ¬ q.Strays t) s qs) := by
  have hfiled := filed_empty hempty
  refine ⟨answers_of_filed hfiled, ?_⟩
  clear hempty
  induction qs generalizing s with
  | nil => exact Iff.rfl
  | cons q qs ih =>
    obtain ⟨hfirst, hrest⟩ := hexist
    constructor
    · rintro ⟨hanswers, hall⟩
      have hstays : ¬ q.Strays s := fun hstrays =>
        q.not_answers_of_strays hfirst hstrays hanswers
      exact ⟨hstays, (ih hrest (q.filed_run hfiled hfirst hstays)).mp hall⟩
    · rintro ⟨hstays, hall⟩
      have hnext := q.filed_run hfiled hfirst hstays
      exact ⟨answers_of_filed hnext, (ih hrest hnext).mpr hall⟩

/-- The object of a record is renamed, gets yet another id, and is updated, and classes are picked up. -/
def renamings : List Request :=
  [.call (.get "Person" "a"), .rename ⟨0⟩ "b", .set ⟨0⟩ "id" (.value (.text "c")),
    .chore (.update .pedantic ⟨0⟩ true), .idle (fun s => (refresh s).2) idles_refresh]

/-- Lookups answer while an object waits for a rename, and after it was renamed. -/
theorem answered_throughout_iff_renamings :
    Request.All (fun t q => q.Exists t) labelledSession renamings
      ∧ Request.All (fun t q => (q.run t).Answers) labelledSession renamings := by
  have hexist : Request.All (fun t q => q.Exists t) labelledSession renamings := by decide +kernel
  have hpending : ((Request.run ((Request.call (.get "Person" "a")).run labelledSession)
      (.rename ⟨0⟩ "b")).world.object ⟨0⟩).oldId = some "a" := by decide +kernel
  have hstays : Request.All (fun t q => ¬ q.Strays t) labelledSession renamings :=
    ⟨id, id, fun hstrays => Option.some_ne_none _ (hpending.symm.trans hstrays.2.1), id, id, trivial⟩
  exact ⟨hexist, (answered_throughout_iff renamings cached?_labelledSession hexist).2.mpr hstays⟩

/-- An object that gets another id without a rename is still found under the id from before. -/
theorem not_answered_of_strays :
    ¬ ∀ (s : Workspace) (qs : List Request), (∀ className id, s.cached? className id = none) →
      Request.All (fun t q => q.Exists t) s qs → Request.All (fun t q => (q.run t).Answers) s qs := by
  intro hclaim
  obtain ⟨-, hanswers, -⟩ := hclaim labelledSession
    [.call (.get "Person" "a"), .set ⟨0⟩ "id" (.value (.text "b"))] cached?_labelledSession
    (by decide +kernel)
  have hfound := hanswers "Person" "a" ⟨0⟩ _ (getObject_of_cached (by decide +kernel))
  exact absurd hfound (by decide +kernel)

end Session

end RecordGraph
