import Mathlib.Data.List.Nodup
import RecordGraph.Proofs.Session.Destroying
import RecordGraph.Proofs.Session.Renaming

/-!
On whose behalf a session changes records.  Everything that an update, an addition or a destruction
does to the store is a list of errands, each of which renames, makes, writes or removes one record for
one object.  The record is the one that a lookup by class and id gives, and lookups look at derived
classes too: it is the object's own only where no record of a derived class stands in for it.
-/

namespace RecordGraph

open RecordGraph.Computation Workspace

namespace Session

/-- An operation on a record that is done for an object. -/
structure Errand where
  object : ObjectId
  operation : Operation

/-- The record that an operation writes a field of. -/
def Written (op : Operation) (r : RecordRef) : Prop :=
  ∃ name accessor v, op = .write r name accessor v

/-- Errands that succeed one after the other lead from one store to another. -/
inductive Performs : Store → List Errand → Store → Prop
  | done (s : Store) : Performs s [] s
  | next {s t u : Store} {es : List Errand} {e : Errand} (h : Performs s es t)
      (run : e.operation.run t = (.ok (), u)) : Performs s (es ++ [e]) u

theorem Performs.single {s t : Store} {e : Errand} (run : e.operation.run s = (.ok (), t)) :
    Performs s [e] t :=
  .next (.done s) run

/-- What may be done for an object that is persisted, given which records stand in for which. -/
inductive Tends (s : Workspace) (stands : RecordRef → RecordRef → Prop) (x : ObjectId) :
    Operation → Prop
  | rename {r : RecordRef} (h : stands (s.world.object x).storedRecord r) :
      Tends s stands x (.renameRecord r (s.world.object x).id)
  | create {place : String} :
      Tends s stands x (.createRecord place (s.world.object x).className (s.world.object x).id)
  | write {r : RecordRef} {name : String} {accessor : Accessor} {v : Value}
      (h : stands (s.world.object x).record r) : Tends s stands x (.write r name accessor v)

theorem Tends.mono {s : Workspace} {x : ObjectId} {stands other : RecordRef → RecordRef → Prop}
    {op : Operation} (hmono : ∀ r q, stands r q → other r q) (h : Tends s stands x op) :
    Tends s other x op := by
  cases h with
  | rename h => exact .rename (hmono _ _ h)
  | create => exact .create
  | write h => exact .write (hmono _ _ h)

/-- Which records stand in for those of certain objects: all that lookups come upon, among the records
that were visible before and those that the objects get. -/
structure Standing (s : Workspace) (xs : List ObjectId) (stands : RecordRef → RecordRef → Prop) :
    Prop where
  refl : ∀ r, stands r r
  renamed : ∀ x ∈ xs, ∀ r, stands (s.world.object x).storedRecord r →
    stands (s.world.object x).record ⟨r.className, (s.world.object x).id⟩
  found : ∀ x ∈ xs, ∀ r : RecordRef,
    r.id = (s.world.object x).id ∨ r.id = (s.world.object x).storedId →
    (s.world.store.Visible r ∨ ∃ y ∈ xs, stands (s.world.object y).record r) →
    s.world.store.hierarchy.isA r.className (s.world.object x).className = true →
    stands ⟨(s.world.object x).className, r.id⟩ r

/-- What persisting some of the objects made of a workspace. -/
structure Tended (s : Workspace) (xs : List ObjectId) (stands : RecordRef → RecordRef → Prop)
    (t : Workspace) : Prop where
  type : ∀ x, (t.world.object x).type = (s.world.object x).type
  id : ∀ x, (t.world.object x).id = (s.world.object x).id
  oldId : ∀ x, (t.world.object x).oldId = none
    ∨ (t.world.object x).oldId = (s.world.object x).oldId
  scope : s.world.store.SameScope t.world.store
  visible : ∀ r, t.world.store.Visible r →
    s.world.store.Visible r ∨ ∃ y ∈ xs, stands (s.world.object y).record r
  errands : ∃ es, Performs s.world.store es t.world.store
    ∧ ∀ e ∈ es, e.object ∈ xs ∧ Tends s stands e.object e.operation

variable {α β : Type} {s t u : Workspace} {xs : List ObjectId} {x : ObjectId}
  {stands : RecordRef → RecordRef → Prop}

namespace Tended

theorem refl (s : Workspace) (xs : List ObjectId) (stands : RecordRef → RecordRef → Prop) :
    Tended s xs stands s :=
  ⟨fun _ => rfl, fun _ => rfl, fun _ => Or.inr rfl, .refl _, fun _ => Or.inl, [], .done _, by simp⟩

theorem className (h : Tended s xs stands t) (x : ObjectId) :
    (t.world.object x).className = (s.world.object x).className :=
  congrArg ClassType.name (h.type x)

theorem record (h : Tended s xs stands t) (x : ObjectId) :
    (t.world.object x).record = (s.world.object x).record := by
  rw [Object.record, h.className, h.id]
  rfl

theorem nameOf (h : Tended s xs stands t) (x : ObjectId) : t.world.nameOf x = s.world.nameOf x := by
  rw [World.nameOf, Object.fullName, h.record]
  rfl

theorem quiet (h : Tended s xs stands t) (hmaintains : t.world.Maintains u.world)
    (hstore : u.world.store = t.world.store) : Tended s xs stands u where
  type x := (hmaintains.type x).trans (h.type x)
  id x := (hmaintains.id x).trans (h.id x)
  oldId x := by
    rw [hmaintains.oldId]
    exact h.oldId x
  scope := hstore ▸ h.scope
  visible := hstore ▸ h.visible
  errands := hstore ▸ h.errands

/-- One more errand. -/
theorem errand {op : Operation} (h : Tended s xs stands t) (hmaintains : t.world.Maintains u.world)
    (hx : x ∈ xs) (hop : Tends s stands x op) (hrun : op.run t.world.store = (.ok (), u.world.store))
    (hscope : t.world.store.SameScope u.world.store)
    (hvisible : ∀ r, u.world.store.Visible r →
      t.world.store.Visible r ∨ stands (s.world.object x).record r) : Tended s xs stands u where
  type x := (hmaintains.type x).trans (h.type x)
  id x := (hmaintains.id x).trans (h.id x)
  oldId x := by
    rw [hmaintains.oldId]
    exact h.oldId x
  scope := h.scope.trans hscope
  visible r hr := by
    rcases hvisible r hr with hold | hnew
    · exact h.visible r hold
    · exact Or.inr ⟨x, hx, hnew⟩
  errands := by
    obtain ⟨es, hes, hall⟩ := h.errands
    refine ⟨es ++ [⟨x, op⟩], .next hes hrun, fun e he => ?_⟩
    rcases List.mem_append.mp he with he | he
    · exact hall e he
    · obtain rfl := List.mem_singleton.mp he
      exact ⟨hx, hop⟩

theorem forget (h : Tended s xs stands t) (x : ObjectId) (oldId : String) :
    Tended s xs stands (forget t x oldId) where
  type y := (header_forget t x y oldId).1.trans (h.type y)
  id y := (header_forget t x y oldId).2.1.trans (h.id y)
  oldId y := (header_forget t x y oldId).2.2.elim Or.inl fun hsame => hsame ▸ h.oldId y
  scope := h.scope
  visible := h.visible
  errands := h.errands

/-- What a lookup finds for an object stands in for its record. -/
theorem found (h : Tended s xs stands t) (hs : Standing s xs stands) (hx : x ∈ xs) {id : String}
    (hid : id = (s.world.object x).id ∨ id = (s.world.object x).storedId) {r : RecordRef}
    (hfind : t.world.store.find (t.world.object x).className id = some r) :
    stands ⟨(s.world.object x).className, id⟩ r := by
  obtain ⟨hvisible, rfl, hisA, -⟩ := Store.find_eq_some hfind
  rw [h.className, h.scope.hierarchy] at hisA
  exact hs.found x hx r hid (h.visible r hvisible) hisA

end Tended

/-! ### Preparing records -/

theorem tended_applyRename (hs : Standing s xs stands) (hx : x ∈ xs) :
    Preserves (Tended s xs stands) (applyRename x) := by
  refine preserves_applyRename (fun t oldId _ h => h.forget x oldId) ?_
  intro t oldId record renamed store hpending hdiffers hfind hrun h
  have hstored : oldId = (s.world.object x).storedId := by
    rcases h.oldId x with hnone | hsame
    · rw [hnone] at hpending
      cases hpending
    · rw [Object.storedId, ← hsame, hpending]
      rfl
  have hstands := h.found hs hx (Or.inr hstored) hfind
  rw [hstored] at hstands
  obtain ⟨-, place, hplace, -, -, hrenamed⟩ := Store.renameRecord_run hrun
  have hnext : Tended s xs stands (withStore t store) := by
    refine h.errand (x := x) (.of_eq rfl rfl) hx (.rename hstands) ?_ ?_ fun r hr => ?_
    · rw [← h.id]
      exact bind_of_ok hrun
    · exact hrenamed ▸ Store.sameScope_withRenamed ..
    · replace hr : store.Visible r := hr
      rw [hrenamed] at hr
      rcases Store.visible_withRenamed hplace hr with rfl | hold
      · rw [h.id]
        exact Or.inr (hs.renamed x hx record hstands)
      · exact Or.inl hold
  exact hnext.forget x oldId

/-! ### What changes no record -/

/-- The records behind proxies are the same. -/
structure KeepsRecords (v w : World) : Prop where
  size : v.proxies.size ≤ w.proxies.size
  record : ∀ p : ProxyId, p.index < v.proxies.size → w.recordOf p = v.recordOf p

/-- A computation that leaves the store, the objects but for their fields, and the records behind
proxies. -/
def Quiet (m : SessionM α) : Prop := ∀ t : Workspace,
  t.world.Maintains (m t).2.world ∧ (m t).2.world.store = t.world.store
    ∧ KeepsRecords t.world (m t).2.world

theorem KeepsRecords.refl (v : World) : KeepsRecords v v := ⟨Nat.le_refl _, fun _ _ => rfl⟩

theorem KeepsRecords.trans {u v w : World} (huv : KeepsRecords u v) (hvw : KeepsRecords v w) :
    KeepsRecords u w :=
  ⟨Nat.le_trans huv.size hvw.size, fun p hp =>
    (hvw.record p (Nat.lt_of_lt_of_le hp huv.size)).trans (huv.record p hp)⟩

theorem keepsRecords_of_eq {v w : World} (h : w.proxies = v.proxies) : KeepsRecords v w := by
  refine ⟨Nat.le_of_eq (congrArg Arena.size h.symm), fun p _ => ?_⟩
  unfold World.recordOf World.proxy
  rw [h]

theorem Quiet.of_reads {m : SessionM α} (hm : Reads m) : Quiet m := fun t => by
  rw [hm t]
  exact ⟨.refl _, rfl, .refl _⟩

theorem Quiet.bind {m : SessionM α} {f : α → SessionM β} (hm : Quiet m) (hf : ∀ a, Quiet (f a)) :
    Quiet (m >>= f) := by
  intro t
  obtain ⟨hmaintains, hstore, hrecords⟩ := hm t
  rcases hrun : m t with ⟨e | a, u⟩
  all_goals rw [hrun] at hmaintains hstore hrecords
  · rw [bind_of_error hrun]
    exact ⟨hmaintains, hstore, hrecords⟩
  · rw [bind_of_ok hrun]
    obtain ⟨hmaintains', hstore', hrecords'⟩ := hf a u
    exact ⟨hmaintains.trans hmaintains', hstore'.trans hstore, hrecords.trans hrecords'⟩

theorem quiet_proxyFor (r : RecordRef) : Quiet (proxyFor r) := by
  refine (Quiet.of_reads reads_get).bind fun s t => ?_
  rw [act_apply]
  cases hschema : (t.world.registry s.session.registry).schema r.className with
  | error e =>
    rw [Action.newProxy_of_error hschema]
    exact ⟨.refl _, rfl, .refl _⟩
  | ok schema =>
    rw [Action.newProxy_of_ok hschema]
    have hextends := World.extends_pushProxy t.world
      { record := r, schema, registry := s.session.registry }
    exact ⟨.of_eq hextends.registries hextends.objects, rfl, hextends.size_le, hextends.record⟩

theorem quiet_record (className id : String) : Quiet (record className id) :=
  (Quiet.of_reads (reads_askStore _)).bind fun _ => quiet_proxyFor _

theorem quiet_get (o : ObjectId) (name : String) : Quiet (act (o.get name)) := by
  intro t
  refine ⟨o.preserves_get name t.world (.refl _), ?_⟩
  rw [act_apply, ObjectId.get, bind_apply, Action.ask_apply]
  cases (t.world.object o).read name <;> exact ⟨rfl, keepsRecords_of_eq rfl⟩

theorem quiet_skipOrFail (policy : Policy) (o : ObjectId) (field : String) (e : Error) :
    Quiet (skipOrFail policy o field e) := by
  refine (Quiet.of_reads reads_get).bind fun s => ?_
  cases policy with
  | permissive => exact fun t => ⟨.of_eq rfl rfl, rfl, keepsRecords_of_eq rfl⟩
  | pedantic => exact .of_reads (reads_throw _)

theorem Quiet.tended {m : SessionM α} (hm : Quiet m) : Preserves (Tended s xs stands) m :=
  fun t h => h.quiet (hm t).1 (hm t).2.1

theorem Quiet.keeps {m : SessionM α} {v : World} (hm : Quiet m) :
    Preserves (fun t => Tended s xs stands t ∧ KeepsRecords v t.world) m :=
  fun t h => ⟨hm.tended t h.1, h.2.trans (hm t).2.2⟩

theorem tended_createRecord (hx : x ∈ xs) (hs : Standing s xs stands) (place : Option String) :
    Preserves (Tended s xs stands)
      (createRecord (s.world.object x).className (s.world.object x).id place) := by
  refine (reads_database _).preserves.bind fun other => Preserves.bind ?_ fun _ =>
    (quiet_proxyFor _).tended
  intro t h
  rcases hrun : Store.createRecord other (s.world.object x).className (s.world.object x).id
    t.world.store with ⟨e | r, store⟩
  · obtain rfl := Store.atomic_createRecord _ _ _ _ _ _ hrun
    rw [onStore_of_run hrun]
    exact h
  · rw [onStore_of_run hrun]
    obtain ⟨-, rfl, -⟩ := Store.createRecord_run hrun
    refine h.errand (x := x) (.of_eq rfl rfl) hx .create (bind_of_ok hrun)
      (Store.sameScope_withRecord ..) fun r hr => ?_
    rcases Store.visible_withRecord hr with rfl | hold
    · exact Or.inr (hs.refl _)
    · exact Or.inl hold

theorem tended_targetFor (hx : x ∈ xs) (hs : Standing s xs stands) :
    Preserves (Tended s xs stands) (targetFor x) := by
  intro t h
  rw [targetFor, bind_of_ok (get_apply t), h.className, h.id]
  split
  · exact ((quiet_record _ _).tended.bind fun _ => preserves_pure _) t h
  · exact ((tended_createRecord hx hs _).bind fun _ => preserves_pure _) t h

/-- The records of the objects that were prepared, as the proxies show them. -/
def Aims (s : Workspace) (xs : List ObjectId) (stands : RecordRef → RecordRef → Prop)
    (targets : Targets) (w : World) : Prop :=
  ∀ x ∈ xs, ∀ target, targets.get? (s.world.nameOf x) = some target →
    target.proxy.index < w.proxies.size ∧ stands (s.world.object x).record (w.recordOf target.proxy)

theorem Aims.keep {targets : Targets} {v w : World} (h : Aims s xs stands targets v)
    (hkeeps : KeepsRecords v w) : Aims s xs stands targets w := by
  intro x hx target hget
  obtain ⟨hbound, hstands⟩ := h x hx target hget
  exact ⟨Nat.lt_of_lt_of_le hbound hkeeps.size, by rwa [hkeeps.record _ hbound]⟩

theorem tended_prepare (hs : Standing s xs stands) (hx : x ∈ xs) (targets : Targets) :
    Preserves (Tended s xs stands) (prepare targets x) := by
  refine (tended_applyRename hs hx).bind fun _ => reads_get.preserves.bind fun t => ?_
  dsimp only
  split
  · exact preserves_pure _
  · exact (tended_targetFor hx hs).bind fun _ => preserves_pure _

theorem keepsRecords_applyRename {v : World} (x : ObjectId) :
    Preserves (fun t => KeepsRecords v t.world) (applyRename x) :=
  preserves_applyRename (fun _ _ _ h => h.trans (keepsRecords_of_eq rfl))
    fun _ _ _ _ _ _ _ _ _ h => h.trans (keepsRecords_of_eq rfl)

/-- Preparing an object points its name to a record that stands in for its own. -/
theorem aims_prepare (hs : Standing s xs stands) (hnodup : (xs.map s.world.nameOf).Nodup)
    (hx : x ∈ xs) {targets targets' : Targets} (h : Tended s xs stands t)
    (haims : Aims s xs stands targets t.world) (hrun : prepare targets x t = (.ok targets', u)) :
    Aims s xs stands targets' u.world := by
  obtain ⟨t', hrename, -, hcases⟩ := prepare_run hrun
  have hkeeps : KeepsRecords t.world t'.world :=
    (keepsRecords_applyRename x).run (.refl _) hrename
  have htended : Tended s xs stands t' := (tended_applyRename hs hx).run h hrename
  rw [h.nameOf] at hcases
  rcases hcases with ⟨-, rfl, rfl⟩ | ⟨-, target, htarget, rfl⟩
  · exact haims.keep hkeeps
  · obtain ⟨hadds, htargeted, hobtains⟩ := targetFor_run htarget
    have hkeeps' : KeepsRecords t'.world u.world := ⟨hadds.proxies, hadds.record⟩
    intro y hy target' hget
    rw [OrderedMap.get?_insert] at hget
    split at hget
    · rename_i hsame
      obtain rfl := List.inj_on_of_nodup_map hnodup hy hx hsame
      cases hget
      refine ⟨htargeted.bound, ?_⟩
      cases hobtains with
      | found _ _ hfind =>
        rw [htended.id] at hfind
        exact htended.found hs hx (Or.inl rfl) hfind
      | made _ hrecord _ _ _ _ _ =>
        rw [hrecord, htended.record]
        exact hs.refl _
    · exact haims.keep (hkeeps.trans hkeeps') y hy target' hget

/-- Preparing objects one after the other gives them records that stand in for their own. -/
theorem aims_foldlM_prepare {targets : Targets} (hs : Standing s xs stands)
    (hnodup : (xs.map s.world.nameOf).Nodup)
    (hrun : xs.foldlM prepare .empty s = (.ok targets, t)) : Aims s xs stands targets t.world := by
  refine (foldlM_run (fun _ targets t => Tended s xs stands t ∧ Aims s xs stands targets t.world) hrun
    ⟨.refl s xs stands, fun _ _ _ h => by simp at h⟩ ?_).2
  rintro - acc x next a b hx ⟨htended, haims⟩ hstep
  exact ⟨(tended_prepare hs hx acc).run htended hstep, aims_prepare hs hnodup hx htended haims hstep⟩

/-! ### Writing objects -/

/-- A write to a record that stands in for that of an object. -/
theorem Tended.write {r : RecordRef} {name place : String} {accessor : Accessor} {v : Value}
    (h : Tended s xs stands t) (hx : x ∈ xs) (hstands : stands (s.world.object x).record r)
    (hplace : t.world.store.writePlace r name accessor v = .ok place)
    (hmaintains : t.world.Maintains u.world) (hstore : u.world.store = t.world.store.put place r name v) :
    Tended s xs stands u := by
  have hshape : t.world.store.SameShape u.world.store :=
    hstore ▸ Store.sameShape_put (Store.writePlace_eq_ok.mp hplace).1
  have hrun : (Operation.write r name accessor v).run t.world.store = (.ok (), u.world.store) := by
    change Store.write r name accessor v t.world.store = _
    rw [Store.write_apply, hplace, hstore]
  refine h.errand hmaintains hx (.write hstands) hrun hshape.scope fun r' hr' => ?_
  rw [Store.Visible, hshape.location] at hr'
  exact Or.inl hr'

section Writing

variable {v : World} {p : ProxyId} (hx : x ∈ xs) (hp : p.index < v.proxies.size)
  (hstands : stands (s.world.object x).record (v.recordOf p))

include hx hp hstands

/-- What writing through a proxy keeps whose record stands in for that of an object. -/
theorem keptByWriting_tended :
    KeptByWriting (fun t => Tended s xs stands t ∧ KeepsRecords v t.world) p where
  get o name := (quiet_get o name).keeps
  skip policy o field e := (quiet_skipOrFail policy o field e).keeps
  record className id := (quiet_record className id).keeps
  setAttribute name value := by
    rintro t ⟨h, hkeeps⟩
    rw [act_apply, ProxyId.setAttribute_apply]
    cases hwrite : t.world.attributeWrite p name value with
    | error e => exact ⟨h, hkeeps⟩
    | ok written =>
      obtain ⟨a, -, -, hplace⟩ := World.attributeWrite_eq_ok.mp hwrite
      exact ⟨h.write hx (by rwa [hkeeps.record p hp]) hplace (.of_eq rfl rfl) rfl,
        hkeeps.trans (keepsRecords_of_eq rfl)⟩
  setRelation name related := by
    rintro t ⟨h, hkeeps⟩
    rw [act_apply, ProxyId.setRelation_apply]
    cases hwrite : t.world.relationWrite p name related with
    | error e => exact ⟨h, hkeeps⟩
    | ok place =>
      obtain ⟨r, -, -, hplace⟩ := World.relationWrite_eq_ok.mp hwrite
      refine ⟨h.write hx (by rwa [hkeeps.record p hp]) hplace (.of_eq rfl rfl) rfl, ?_⟩
      have hextends := World.extends_changeProxy
        (t.world.put p name place (related.toValue t.world.recordOf)) p
        (f := fun proxy => (proxy.restore name).cache name related) (fun _ => rfl) (fun _ => rfl)
        fun _ => rfl
      exact (hkeeps.trans (keepsRecords_of_eq rfl)).trans ⟨hextends.size_le, hextends.record⟩

end Writing

/-- Writing an object to the record that it was prepared with. -/
theorem tended_writeObject {targets : Targets} {v : World} (mode : Persistence) (hx : x ∈ xs)
    (haims : Aims s xs stands targets v) :
    Preserves (fun t => Tended s xs stands t ∧ KeepsRecords v t.world)
      (writeObject mode targets x) := by
  have hcache : Preserves (fun t => Tended s xs stands t ∧ KeepsRecords v t.world)
      (modify fun s => s.cache x) :=
    Quiet.keeps fun t => ⟨.refl _, rfl, .refl _⟩
  have hclear : Preserves (fun t => Tended s xs stands t ∧ KeepsRecords v t.world)
      (act x.clearTouched) :=
    Quiet.keeps fun t => ⟨x.preserves_clearTouched _ (.refl _), rfl, keepsRecords_of_eq rfl⟩
  intro t h
  rw [writeObject, bind_of_ok (get_apply t), h.1.nameOf]
  cases hget : targets.get? (s.world.nameOf x) with
  | none => exact h
  | some target =>
    obtain ⟨hp, hstands⟩ := haims x hx target hget
    dsimp only
    split
    · exact (((keptByWriting_tended hx hp hstands).writeFields _ _ _).bind fun _ =>
        hclear.bind fun _ => hcache) t h
    · exact hcache t h

/-- Whatever comes of persisting an object, all that it does to the store is errands. -/
theorem tended_persist (mode : Persistence) (o : ObjectId)
    (hs : Standing s (persisted s mode.recursive o) stands) :
    Tended s (persisted s mode.recursive o) stands (persist mode o s).2 := by
  rw [persist_apply]
  have hprepared := Preserves.foldlM (fun targets x hx => tended_prepare hs hx targets) .empty s
    (.refl s _ stands)
  rcases hrun : (persisted s mode.recursive o).foldlM prepare .empty s with ⟨e | targets, t⟩
  · rw [bind_of_error hrun]
    rwa [hrun] at hprepared
  · rw [bind_of_ok hrun]
    rw [hrun] at hprepared
    have haims := aims_foldlM_prepare hs (nodup_persisted s mode.recursive o) hrun
    have hwritten := (Preserves.forM fun x hx => tended_writeObject mode hx haims).bind fun _ =>
      (reads_rootProxy targets o).preserves
    exact (hwritten t ⟨hprepared, .refl _⟩).1

/-! ### Records that stand in -/

/-- A class and an id lead to a record: it has the id, and its class is the same or derives from it. -/
structure Leads (s : Workspace) (r q : RecordRef) : Prop where
  id : q.id = r.id
  isA : s.world.store.hierarchy.isA q.className r.className = true

/-- A record of a derived class has an id of an object. -/
def Shadows (s : Workspace) (x : ObjectId) (q : RecordRef) : Prop :=
  s.world.store.hierarchy.isA q.className (s.world.object x).className = true
    ∧ q.className ≠ (s.world.object x).className
    ∧ (q.id = (s.world.object x).id ∨ q.id = (s.world.object x).storedId)

instance (s : Workspace) (x : ObjectId) (q : RecordRef) : Decidable (Shadows s x q) :=
  inferInstanceAs (Decidable (_ ∧ _ ∧ _))

/-- Neither a visible record nor one that some of the objects get is taken for that of another one of
them. -/
def Unshadowed (s : Workspace) (xs : List ObjectId) : Prop :=
  ∀ x ∈ xs, ∀ q, s.world.store.Visible q ∨ q ∈ xs.map (fun y => (s.world.object y).record) →
    ¬ Shadows s x q

instance (s : Workspace) (xs : List ObjectId) : Decidable (Unshadowed s xs) :=
  decidable_of_iff (∀ x ∈ xs, ∀ q ∈ s.world.store.allRecords ++
      xs.map (fun y => (s.world.object y).record),
      s.world.store.Visible q ∨ q ∈ xs.map (fun y => (s.world.object y).record) → ¬ Shadows s x q)
    ⟨fun h x hx q hq => h x hx q
        (List.mem_append.mpr (hq.imp_left fun hvisible => hvisible.mem_allRecords)) hq,
      fun h x hx q _ hq => h x hx q hq⟩

/-- A record stands in for those that lead to it, and only for itself where nothing is shadowed. -/
def Stands (s : Workspace) (xs : List ObjectId) (r q : RecordRef) : Prop :=
  Leads s r q ∧ (Unshadowed s xs → r = q)

theorem standing_stands (s : Workspace) (xs : List ObjectId) : Standing s xs (Stands s xs) where
  refl r := ⟨⟨rfl, Hierarchy.isA_refl _ _⟩, fun _ => rfl⟩
  renamed x _ r h := by
    refine ⟨⟨rfl, h.1.isA⟩, fun hfree => ?_⟩
    rw [← h.2 hfree]
    rfl
  found x hx r hid hr hisA := by
    refine ⟨⟨rfl, hisA⟩, fun hfree => ?_⟩
    have hr' : s.world.store.Visible r ∨ r ∈ xs.map fun y => (s.world.object y).record := by
      refine hr.imp_right fun ⟨y, hy, hstands⟩ => ?_
      rw [← hstands.2 hfree]
      exact List.mem_map_of_mem hy
    have hclass : r.className = (s.world.object x).className := Decidable.byContradiction fun hne =>
      hfree x hx r hr' ⟨hisA, hne, hid⟩
    rw [← hclass]

/-! ### Chores -/

/-- What is done to the store for objects. -/
inductive Chore
  | add (o : ObjectId) (recursive : Bool)
  | update (policy : Policy) (o : ObjectId) (recursive : Bool)
  | destroy (o : ObjectId)

namespace Chore

/-- Runs a chore for what it does to the store. -/
def run : Chore → SessionM Unit
  | .add o recursive => do let _ ← Session.add o recursive
  | .update policy o recursive => do let _ ← updateWith policy o recursive
  | .destroy o => Session.destroy o

theorem state_run_add (o : ObjectId) (recursive : Bool) (s : Workspace) :
    ((Chore.add o recursive).run s).2
      = (persist { policy := s.session.policy, recursive, createOnly := true } o s).2 := by
  rw [run, state_bind_of_reads fun _ _ => rfl, Session.add, bind_of_ok (get_apply s)]

theorem state_run_update (policy : Policy) (o : ObjectId) (recursive : Bool) (s : Workspace) :
    ((Chore.update policy o recursive).run s).2
      = (persist { policy, recursive, createOnly := false } o s).2 := by
  rw [run, state_bind_of_reads fun _ _ => rfl, updateWith]

/-- The objects that a chore is about. -/
def objects (s : Workspace) : Chore → List ObjectId
  | .add o recursive => persisted s recursive o
  | .update _ o recursive => persisted s recursive o
  | .destroy o => [o]

/-- What a chore may do for an object, given which records stand in for which.  Destroying removes the
record that a lookup gives first. -/
def Does (c : Chore) (s : Workspace) (stands : RecordRef → RecordRef → Prop) (x : ObjectId)
    (op : Operation) : Prop :=
  match c with
  | .destroy _ => ∃ r,
    s.world.store.find (s.world.object x).className (s.world.object x).storedId = some r
      ∧ stands (s.world.object x).storedRecord r ∧ op = .destroyRecord r
  | _ => Tends s stands x op

theorem Does.mono {c : Chore} {other : RecordRef → RecordRef → Prop} {op : Operation}
    (hmono : ∀ r q, stands r q → other r q) (h : c.Does s stands x op) : c.Does s other x op := by
  cases c with
  | add => exact Tends.mono hmono h
  | update => exact Tends.mono hmono h
  | destroy =>
    obtain ⟨r, hfind, hr, rfl⟩ := h
    exact ⟨r, hfind, hmono _ _ hr, rfl⟩

theorem Does.eq_record {c : Chore} {op : Operation} {r : RecordRef} (h : c.Does s Eq x op)
    (hwritten : Written op r) : (s.world.object x).record = r := by
  obtain ⟨name, accessor, v, rfl⟩ := hwritten
  have htends : Tends s Eq x (.write r name accessor v) → (s.world.object x).record = r :=
    fun htends => by
      cases htends with
      | write h => exact h
  cases c with
  | add => exact htends h
  | update => exact htends h
  | destroy =>
    obtain ⟨removed, -, -, heq⟩ := h
    cases heq

theorem nodup_objects (c : Chore) (s : Workspace) :
    ((c.objects s).map s.world.nameOf).Nodup := by
  cases c with
  | add o recursive => exact nodup_persisted s recursive o
  | update _ o recursive => exact nodup_persisted s recursive o
  | destroy o => simp [objects]

end Chore

theorem keepsStore_dropFromCache (store : Store) (o : ObjectId) (object : Object) :
    Preserves (fun t : Workspace => t.world.store = store) (dropFromCache o object) := by
  have hevict : ∀ id, Preserves (fun t : Workspace => t.world.store = store)
      (modify fun s => s.evict o id) := fun _ _ h => h
  have hclear : Preserves (fun t : Workspace => t.world.store = store) (act o.clearRename) :=
    fun _ h => h
  refine (hevict _).bind fun _ => ?_
  split
  · exact preserves_pure _
  · exact (hevict _).bind fun _ => hclear

/-- Destroying an object removes what its class and its stored id lead to first, or nothing. -/
theorem destroy_store (o : ObjectId) (s : Workspace) :
    (destroy o s).2.world.store = s.world.store
      ∨ ∃ r, s.world.store.find (s.world.object o).className (s.world.object o).storedId = some r
        ∧ Store.destroyRecord r s.world.store = (.ok (), (destroy o s).2.world.store) := by
  rw [destroy_apply]
  cases hfind : s.world.store.find (s.world.object o).className (s.world.object o).storedId with
  | none => exact Or.inl (keepsStore_dropFromCache _ _ _ s rfl)
  | some r =>
    dsimp only
    rcases hrun : Store.destroyRecord r s.world.store with ⟨e | done, store⟩
    · obtain rfl := Store.atomic_destroyRecord _ _ _ _ hrun
      rw [bind_of_error (onStore_of_run hrun)]
      exact Or.inl rfl
    · rw [bind_of_ok (onStore_of_run hrun), keepsStore_dropFromCache store _ _ _ rfl]
      exact Or.inr ⟨r, rfl, hrun⟩

namespace Chore

/-- Whether a chore succeeds or not, all that it does to the store is done for its objects. -/
theorem exists_errands (c : Chore) (s : Workspace) :
    ∃ es, Performs s.world.store es (c.run s).2.world.store
      ∧ ∀ e ∈ es, e.object ∈ c.objects s ∧ c.Does s (Stands s (c.objects s)) e.object e.operation := by
  have hstanding := standing_stands s (c.objects s)
  cases c with
  | add o recursive =>
    rw [state_run_add]
    exact (tended_persist _ o hstanding).errands
  | update policy o recursive =>
    rw [state_run_update]
    exact (tended_persist _ o hstanding).errands
  | destroy o =>
    rw [run]
    rcases destroy_store o s with hsame | ⟨r, hfind, hdestroyed⟩
    · rw [hsame]
      exact ⟨[], .done _, fun e he => absurd he List.not_mem_nil⟩
    · obtain ⟨hvisible, hid, hisA, -⟩ := Store.find_eq_some hfind
      refine ⟨[⟨o, .destroyRecord r⟩], .single hdestroyed, fun e he => ?_⟩
      obtain rfl := List.mem_singleton.mp he
      refine ⟨List.mem_singleton_self o, r, hfind, ?_, rfl⟩
      have hfound := hstanding.found o (List.mem_singleton_self o) r (Or.inr hid) (Or.inl hvisible) hisA
      rwa [hid] at hfound

/-- All that a chore does to the store, whether it succeeds or not, is done for one of its objects, to a
record that the class and the id of the object lead to.  Where nothing is shadowed it is the record of
the object itself, and no record is written to for two of the objects. -/
theorem acts_for_objects (c : Chore) (s : Workspace) :
    ∃ es, Performs s.world.store es (c.run s).2.world.store
      ∧ (∀ e ∈ es, e.object ∈ c.objects s ∧ c.Does s (Leads s) e.object e.operation)
      ∧ (Unshadowed s (c.objects s) →
        (∀ e ∈ es, c.Does s Eq e.object e.operation)
        ∧ ∀ e ∈ es, ∀ e' ∈ es, ∀ r, Written e.operation r → Written e'.operation r →
          e.object = e'.object) := by
  obtain ⟨es, hes, hall⟩ := c.exists_errands s
  have hown : Unshadowed s (c.objects s) → ∀ e ∈ es, c.Does s Eq e.object e.operation :=
    fun hfree e he => (hall e he).2.mono fun _ _ hstands => hstands.2 hfree
  refine ⟨es, hes, fun e he => ⟨(hall e he).1, (hall e he).2.mono fun _ _ hstands => hstands.1⟩,
    fun hfree => ⟨hown hfree, fun e he e' he' r hwritten hwritten' => ?_⟩⟩
  have hrecord := ((hown hfree e he).eq_record hwritten).trans
    ((hown hfree e' he').eq_record hwritten').symm
  exact List.inj_on_of_nodup_map (c.nodup_objects s) (hall e he).1 (hall e' he').1
    (congrArg RecordRef.fullName hrecord)

/-- The update of a renamed object renames its record, and writes to no other one. -/
theorem acts_for_objects_labelled :
    ∃ es, Performs labelledRenamed.world.store es
        ((Chore.update .pedantic ⟨0⟩ true).run labelledRenamed).2.world.store
      ∧ (∀ e ∈ es, (Chore.update .pedantic ⟨0⟩ true).Does labelledRenamed Eq ⟨0⟩ e.operation)
      ∧ ((Chore.update .pedantic ⟨0⟩ true).run labelledRenamed).2.world.store.Visible
        ⟨"Person", "b"⟩ := by
  have hobjects : (Chore.update .pedantic ⟨0⟩ true).objects labelledRenamed = [⟨0⟩] := by
    decide +kernel
  have hfree : Unshadowed labelledRenamed [⟨0⟩] := by decide +kernel
  obtain ⟨es, hes, hall, hown⟩ := acts_for_objects (.update .pedantic ⟨0⟩ true) labelledRenamed
  rw [hobjects] at hall hown
  refine ⟨es, hes, fun e he => ?_, by decide +kernel⟩
  have hobject := List.mem_singleton.mp (hall e he).1
  exact hobject ▸ (hown hfree).1 e he

end Chore

/-- A record of a class that derives from another one. -/
def lending : Store :=
  .after [
    .addSchema "library" {
      classes := [{ name := "Entry", attributes := [{ name := "note", type := "string" }] },
        { name := "Volume", superclasses := ["Entry"] }] },
    .createDatabase "shelf" ["library"],
    .createRecord "shelf" "Volume" "x"]

def entrySchema : ClassSchema :=
  { name := "Entry", subclasses := ["Volume"], descendants := ["Volume"]
    attributes := personSchema.attributes }

def volumeSchema : ClassSchema :=
  { name := "Volume", superclasses := ["Entry"], ancestors := ["Entry"]
    attributes := personSchema.attributes }

def entryType : ClassType := { schema := entrySchema, bases := [], home := ⟨0⟩ }

def volumeType : ClassType := { schema := volumeSchema, bases := [entryType], home := ⟨0⟩ }

def lendingSession : Workspace :=
  { session := { registry := ⟨0⟩, active := some "shelf" }
    world := { store := lending, registries := Arena.empty.push {
      schemas := .ofList [("Entry", entrySchema), ("Volume", volumeSchema)]
      types := .ofList [("Entry", entryType), ("Volume", volumeType)]
      known := ["Entry", "Volume"] } } }

/-- A new object of the more basic class, with the id of the record. -/
def entryMade : Workspace := (newObject "Entry" "x" lendingSession).2

def entryNoted : Workspace := (setAll ⟨0⟩ [("note", .value (.text "n"))] entryMade).2

/-- Destroying an object can remove a record of a derived class, and updating it can write to one. -/
theorem not_acts_on_own_of_derived :
    (¬ ∀ (c : Chore) (s : Workspace) (r : RecordRef), s.world.store.Reachable →
      (∀ x ∈ c.objects s, r.className ≠ (s.world.object x).className) → s.world.store.Visible r →
      (c.run s).2.world.store.Visible r)
    ∧ ¬ ∀ (c : Chore) (s : Workspace) (r : RecordRef), s.world.store.Reachable →
      (∀ x ∈ c.objects s, r.className ≠ (s.world.object x).className) → s.world.store.Visible r →
      ∀ place name multi, (c.run s).2.world.store.stored place r name multi
        = s.world.store.stored place r name multi := by
  have hreachable : lending.Reachable := Store.reachableBy_after fun _ _ => trivial
  constructor
  · intro hclaim
    have hkept := hclaim (.destroy ⟨0⟩) entryMade ⟨"Volume", "x"⟩ hreachable (by decide +kernel)
      (by decide +kernel)
    exact absurd hkept (by decide +kernel)
  · intro hclaim
    have hkept := hclaim (.update .pedantic ⟨0⟩ false) entryNoted ⟨"Volume", "x"⟩ hreachable
      (by decide +kernel) (by decide +kernel) "shelf" "note" false
    have hnull := congrArg Value.isNull hkept
    exact absurd hnull (by decide +kernel)

end Session

end RecordGraph
