import RecordGraph.Proofs.Session.Serving

/-!
What sessions leave alone.  Apart from the calls that write to objects or give them other ids, all that
sessions and their surroundings do is put together from few kinds of steps.  What each of these steps
keeps is kept by all of it.
-/

namespace RecordGraph

open RecordGraph.Computation

namespace World

/-- A way for one world to come from another that allows every step but those which write to objects
or give them other ids. -/
structure Frame (R : World → World → Prop) : Prop where
  refl : ∀ w, R w w
  trans : ∀ {u v w}, R u v → R v w → R u w
  outside : ∀ {v w}, w.registries = v.registries → w.objects = v.objects → w.proxies = v.proxies → R v w
  newProxy : ∀ w r record, R w (Action.newProxy r record w).2
  changeProxy : ∀ w p (f : Proxy → Proxy), (∀ proxy, (f proxy).record = proxy.record
    ∧ (f proxy).schema = proxy.schema ∧ (f proxy).registry = proxy.registry) → R w (w.changeProxy p f)
  newObject : ∀ w type id, R w (Action.newObject type id w).2
  read : ∀ (w : World) (o : ObjectId) name, R w (o.get name w).2
  clearTouched : ∀ w o, R w (w.changeObject o fun object => { object with touched := [] })
  clearRename : ∀ w o, R w (w.changeObject o fun object => { object with oldId := none })
  answer : ∀ (s : Workspace) (c : Session.Call), R s.world (c.run s).2.world
  newRegistry : ∀ w, R w (w.addRegistry {} [])
  refresh : ∀ (w : World) (r : RegistryId), R w (r.refresh w).2
  derive : ∀ (w : World) (r : RegistryId) classNames, R w (r.derive classNames w).2

end World

/-- The world of one workspace comes from that of another in some way. -/
def Workspace.Along (R : World → World → Prop) (s t : Workspace) : Prop := R s.world t.world

namespace World.Frame

open Workspace Session

variable {R : World → World → Prop} (hR : Frame R) {α : Type} {v : World} {s t : Workspace}

include hR

theorem keptByProxies : KeptByProxies (R v) where
  newProxy r record w hw := hR.trans hw (hR.newProxy w r record)
  changeProxy w p f hf hw := hR.trans hw (hR.changeProxy w p f hf)
  warn _ _ hw := hR.trans hw (hR.outside rfl rfl rfl)
  onStore _ _ hw := hR.trans hw (hR.outside rfl rfl rfl)

/-! ### Sessions -/

theorem act {a : Action α} (ha : ∀ w, R w (a w).2) :
    Preserves (s.Along R) (Session.act a) :=
  fun t ht => hR.trans ht (ha t.world)

theorem sessionOnStore (m : StoreM α) : Preserves (s.Along R) (Session.onStore m) :=
  hR.act fun w => hR.keptByProxies.onStore m w (hR.refl w)

theorem proxyFor (r : RecordRef) : Preserves (s.Along R) (proxyFor r) :=
  reads_get.preserves.bind fun _ => hR.act fun w => hR.newProxy w _ r

theorem record (className id : String) : Preserves (s.Along R) (record className id) :=
  (reads_askStore _).preserves.bind fun _ => hR.proxyFor _

theorem records (className : String) : Preserves (s.Along R) (records className) :=
  (reads_askStore _).preserves.bind fun _ => .mapM fun _ _ => hR.proxyFor _

theorem createRecord (className id : String) (place : Option String) :
    Preserves (s.Along R) (createRecord className id place) :=
  (reads_database _).preserves.bind fun _ => (hR.sessionOnStore _).bind fun _ => hR.proxyFor _

theorem sessionRefresh : Preserves (s.Along R) Session.refresh :=
  reads_get.preserves.bind fun t => (hR.act fun w => hR.refresh w t.session.registry).bind fun _ =>
    Preserves.bind (preserves_modify fun _ hu => hu) fun _ => preserves_pure _

theorem sessionNewObject (className id : String) :
    Preserves (s.Along R) (Session.newObject className id) :=
  (Session.reads_ask _).preserves.bind fun type => hR.act fun w => hR.newObject w type id

/-! ### Persisting and destroying -/

theorem forget {x : ObjectId} {oldId : String} (h : s.Along R t) :
    s.Along R (Session.forget t x oldId) :=
  hR.trans h (hR.clearRename t.world x)

theorem targetFor (x : ObjectId) : Preserves (s.Along R) (targetFor x) := by
  refine reads_get.preserves.bind fun t => ?_
  dsimp only
  split
  · exact (hR.record _ _).bind fun _ => preserves_pure _
  · exact (hR.createRecord _ _ _).bind fun _ => preserves_pure _

theorem prepare (targets : Targets) (x : ObjectId) :
    Preserves (s.Along R) (prepare targets x) := by
  have hrename : Preserves (s.Along R) (applyRename x) :=
    preserves_applyRename (fun _ _ _ h => hR.forget h) fun t _ _ _ store _ _ _ _ h =>
      hR.forget (t := withStore t store) (hR.trans h (hR.outside rfl rfl rfl))
  refine hrename.bind fun _ => reads_get.preserves.bind fun t => ?_
  dsimp only
  split
  · exact preserves_pure _
  · exact (hR.targetFor x).bind fun _ => preserves_pure _

theorem keptByWriting (s : Workspace) (p : ProxyId) : KeptByWriting (s.Along R) p where
  get o name := hR.act fun w => hR.read w o name
  setAttribute name x := hR.act fun w => hR.keptByProxies.setAttribute p name x w (hR.refl w)
  setRelation name related := hR.act fun w => hR.keptByProxies.setRelation p name related w (hR.refl w)
  skip policy o field e := by
    refine reads_get.preserves.bind fun t => ?_
    cases policy with
    | permissive => exact preserves_modify fun t ht => hR.trans ht (hR.outside rfl rfl rfl)
    | pedantic => exact (reads_throw _).preserves
  record := hR.record

theorem writeObject (mode : Persistence) (targets : Targets) (x : ObjectId) :
    Preserves (s.Along R) (writeObject mode targets x) := by
  have hcache : Preserves (s.Along R) (modify fun t => t.cache x) := fun _ ht => ht
  refine reads_get.preserves.bind fun t => ?_
  dsimp only
  split
  · exact preserves_pure _
  · split
    · exact ((hR.keptByWriting s _).writeFields _ _ _).bind fun _ =>
        (hR.act fun w => hR.clearTouched w x).bind fun _ => hcache
    · exact hcache

theorem persist (mode : Persistence) (o : ObjectId) : s.Along R (persist mode o s).2 := by
  rw [persist_apply]
  have hprepare : Preserves (s.Along R)
      ((persisted s mode.recursive o).foldlM Session.prepare .empty) :=
    .foldlM (fun targets x _ => hR.prepare targets x) .empty
  refine hprepare.bind (fun targets => ?_) s (hR.refl _)
  exact (Preserves.forM fun x _ => hR.writeObject mode targets x).bind fun _ =>
    (reads_rootProxy targets o).preserves

theorem destroy (o : ObjectId) : s.Along R (destroy o s).2 := by
  have hdrop : ∀ object, Preserves (s.Along R) (dropFromCache o object) := by
    intro object
    have hevict : ∀ id, Preserves (s.Along R)
        (modify fun t => t.evict o id) := fun _ _ ht => ht
    refine (hevict _).bind fun _ => ?_
    split
    · exact preserves_pure _
    · exact (hevict _).bind fun _ => hR.act fun w => hR.clearRename w o
  rw [destroy_apply]
  split
  · exact hdrop _ s (hR.refl _)
  · exact ((hR.sessionOnStore _).bind fun _ => hdrop _) s (hR.refl _)

/-! ### Jobs -/

theorem chore (c : Chore) : s.Along R (c.run s).2 := by
  cases c with
  | add o recursive =>
    rw [Chore.state_run_add]
    exact hR.persist _ o
  | update policy o recursive =>
    rw [Chore.state_run_update]
    exact hR.persist _ o
  | destroy o => exact hR.destroy o

/-- Whatever a session does is allowed, whether it succeeds or fails. -/
theorem job (job : Job) : s.Along R (job.run s).2 := by
  have done : ∀ {β : Type} {m : SessionM β}, Preserves (s.Along R) m →
      Preserves (s.Along R) (do let _ ← m : SessionM Unit) :=
    fun hm => hm.bind fun _ => preserves_pure _
  have hstart : s.Along R s := hR.refl s.world
  cases job with
  | call c => exact done (fun t ht => hR.trans ht (hR.answer t c)) s hstart
  | chore c => exact hR.chore c
  | newObject className id => exact done (hR.sessionNewObject className id) s hstart
  | record className id => exact done (hR.record className id) s hstart
  | records className => exact done (hR.records className) s hstart
  | createRecord className id place =>
    exact done (hR.createRecord className id place) s hstart
  | cache o => exact hstart
  | evict o id => exact hstart
  | initCache className => exact hstart
  | refresh => exact done hR.sessionRefresh s hstart
  | createDatabase name includes =>
    refine ((hR.sessionOnStore _).bind fun _ => Preserves.bind ?_ fun _ => done hR.sessionRefresh) s hstart
    exact preserves_modify fun _ hu => hu
  | setActive name =>
    have hactive : Preserves (s.Along R) (Session.setActive name) := by
      refine reads_get.preserves.bind fun t => ?_
      split
      · exact preserves_modify fun _ hu => hu
      · exact (reads_throw _).preserves
    exact hactive s hstart
  | addInclude included place =>
    exact ((reads_database place).preserves.bind fun _ =>
      (hR.sessionOnStore _).bind fun _ => done hR.sessionRefresh) s hstart
  | removeInclude included place =>
    exact ((reads_database place).preserves.bind fun _ => hR.sessionOnStore _) s hstart
  | commit comment => exact hR.sessionOnStore _ s hstart

/-! ### Sessions side by side -/

theorem opening (w : World) (policy : Policy) (r : RegistryId) (active : Option String) :
    R w (Session.opening policy r active w).2 := by
  have hstart : Workspace.Along R ⟨{ registry := r, policy, active }, w⟩
      ⟨{ registry := r, policy, active }, w⟩ := hR.refl w
  have hnext := hR.sessionRefresh _ hstart
  rw [Session.opening]
  rcases hrun : Session.refresh ⟨{ registry := r, policy, active }, w⟩ with ⟨result, t⟩
  rw [hrun] at hnext
  exact hnext

theorem openWith (w : World) (options : Session.Options) : R w (Session.openWith options w).2 := by
  by_cases hloaded : ∀ name, options.active = some name → w.store.loaded.contains name = true
  · rw [openWith_eq hloaded]
    cases options.registry with
    | some r => exact hR.opening w _ r _
    | none => exact hR.trans (hR.newRegistry w) (hR.opening _ _ _ _)
  · simp only [Classical.not_forall] at hloaded
    obtain ⟨name, hname, hmissing⟩ := hloaded
    rw [openWith_of_not_loaded hname hmissing]
    exact hR.refl w

/-- Whatever happens to sessions and their world is allowed, unless it is a call on objects. -/
theorem run (y : System) (event : System.Event) (hevent : ∀ r call, event ≠ .object r call) :
    R y.world (y.run event).world := by
  have done : ∀ {β : Type} {m : Action β}, (∀ v, Preserves (R v) m) → R y.world (m y.world).2 :=
    fun hm => hm y.world y.world (hR.refl _)
  cases event with
  | store op => exact done fun _ => hR.keptByProxies.onStore op.run
  | newRegistry =>
    rw [System.run, Action.newRegistry_apply]
    exact hR.newRegistry y.world
  | refresh r =>
    rw [System.run]
    exact hR.refresh y.world r
  | derive r classNames =>
    rw [System.run]
    exact hR.derive y.world r classNames
  | object r call => exact absurd rfl (hevent r call)
  | readObject o name => exact hR.read y.world o name
  | newProxy r record => exact hR.newProxy y.world r record
  | readProxy p name => exact done fun _ => hR.keptByProxies.get p name
  | writeProxy p name f => exact done fun _ => hR.keptByProxies.set p name f
  | openWith options =>
    have hopen := hR.openWith y.world options
    rw [System.run]
    rcases hrun : Session.openWith options y.world with ⟨e | session, w⟩ <;> rwa [hrun] at hopen
  | close index => exact hR.refl y.world
  | ask index job =>
    rw [System.run]
    cases y.sessions[index]? with
    | none => exact hR.refl y.world
    | some session => exact hR.job (s := ⟨session, y.world⟩) job

end World.Frame

end RecordGraph
