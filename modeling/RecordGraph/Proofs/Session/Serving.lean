import RecordGraph.Proofs.Object.Tracking
import RecordGraph.Proofs.Registry.Rooted
import RecordGraph.Proofs.Session.Answering

/-!
Sessions side by side.  Any number of sessions work over one store, with registries of their own or
shared ones, while the store, the registries and the objects change beside them.  Whatever happens, the
types of every registry rest on each other, and every session caches objects that exist.
-/

namespace RecordGraph

open RecordGraph.Computation

namespace World

variable {u v w : World}

theorem Maintains.roots (h : v.Maintains w) : v.Roots w :=
  roots_of_types (Nat.le_of_eq h.objects.symm) fun r => by
    unfold registry
    rw [h.registries]

theorem SameTypes.roots (h : v.SameTypes w) (hobjects : v.objects.size ≤ w.objects.size) :
    v.Roots w :=
  roots_of_types hobjects h.types

theorem preserves_roots {α : Type} {m : Action α} (hm : ∀ v, Preserves (Maintains v) m) :
    Preserves u.Roots m :=
  fun v hv => hv.trans (hm v v (.refl v)).roots

end World

/-! ### Registries -/

namespace Action

theorem roots_newRegistry {v : World} : Preserves v.Roots Action.newRegistry := by
  intro w hw
  rw [Action.newRegistry_apply]
  refine hw.trans ⟨Nat.le_refl _, fun r h => ?_⟩
  unfold World.registry World.addRegistry at *
  dsimp only
  rw [Arena.read_push]
  split
  · exact Registry.rooted_empty
  · exact h

end Action

/-! ### Objects and proxies -/

namespace World

variable {w : World} {o : ObjectId}

theorem roots_setId (w : World) (o : ObjectId) (id : String) : w.Roots (w.setId o id) :=
  (sameTypes_setId w o id).roots (by simp [setId, changeObject, changeRegistry])

theorem roots_writeField (w : World) (o : ObjectId) (name : String) (f : Field) :
    w.Roots (w.writeField o name f) :=
  (sameTypes_writeField w o name f).roots
    (by simp [writeField, noteUpdated, changeObject, changeRegistry])

end World

namespace ObjectId

variable {v : World} (o : ObjectId)

theorem roots_set (name : String) (f : Field) : Preserves v.Roots (o.set name f) := by
  intro w hw
  rcases World.set_cases w o name f with hset | ⟨-, id, hset⟩ | ⟨-, g, -, hset⟩
  · rwa [hset]
  · rw [hset]
    exact hw.trans (w.roots_setId o id)
  · rw [hset]
    exact hw.trans (w.roots_writeField o name g)

theorem roots_setUnchecked (name : String) (f : Field) :
    Preserves v.Roots (o.setUnchecked name f) := by
  unfold setUnchecked
  split
  · exact preserves_modify fun w hw => hw.trans (w.roots_setId o _)
  · refine reads_get.preserves.bind fun w => ?_
    dsimp only
    split
    · exact preserves_modify fun w hw => hw.trans (w.roots_writeField o _ _)
    · exact (reads_throw _).preserves

theorem roots_rename (id : String) : Preserves v.Roots (o.rename id) := by
  refine preserves_modify fun w hw => ?_
  dsimp only
  split
  · exact hw
  · have hnoted := (World.sameTypes_changeObject w o
      fun object => { object with oldId := some object.storedId }).roots
      (by simp [World.changeObject])
    exact (hw.trans hnoted).trans (World.roots_setId _ o id)

theorem roots_copy (other : ObjectId) : Preserves v.Roots (o.copy other) :=
  reads_get.preserves.bind fun _ => .forM fun _ _ => o.roots_setUnchecked _ _

end ObjectId

theorem ObjectCall.roots_run (r : RegistryId) (w : World) (call : ObjectCall) :
    w.Roots (call.run r w) := by
  cases call with
  | copy o other => exact o.roots_copy other w (.refl w)
  | single step =>
    cases step with
    | make type id =>
      have hsize : (Action.newObject type id w).2.objects.size = w.objects.size + 1 :=
        Arena.size_push ..
      exact World.roots_of_types (hsize ▸ Nat.le_succ _) fun _ => rfl
    | set o name f => exact o.roots_set name f w (.refl w)
    | setUnchecked o name f => exact o.roots_setUnchecked name f w (.refl w)
    | rename o id => exact o.roots_rename id w (.refl w)
    | reset => exact w.roots_changeRegistry r fun h => h.of_eq rfl

/-! ### Sessions -/

namespace Workspace

/-- What a session does keeps types resting on each other and cached objects in existence. -/
structure Serves (s t : Workspace) : Prop where
  roots : s.world.Roots t.world
  cached : s.CachesObjects → t.CachesObjects

variable {s t u : Workspace} {o : ObjectId}

namespace Serves

theorem refl (s : Workspace) : s.Serves s := ⟨.refl _, fun h => h⟩

theorem trans (hst : s.Serves t) (htu : t.Serves u) : s.Serves u :=
  ⟨hst.roots.trans htu.roots, fun h => htu.cached (hst.cached h)⟩

/-- Nothing comes into the cache. -/
theorem of_cached (hroots : s.world.Roots t.world)
    (hcached : ∀ className id o, t.cached? className id = some o →
      s.cached? className id = some o) : s.Serves t :=
  ⟨hroots, fun h className id o ho =>
    Nat.lt_of_lt_of_le (h className id o (hcached className id o ho)) hroots.objects⟩

theorem cache (h : s.Serves t) (ho : o.index < t.world.objects.size) : s.Serves (t.cache o) := by
  refine h.trans ⟨.refl _, fun hcached className id x hx => ?_⟩
  rcases cached?_cache_eq_some hx with ⟨rfl, -⟩ | hold
  · exact ho
  · exact hcached className id x hold

theorem evict (h : s.Serves t) (o : ObjectId) (id : String) : s.Serves (t.evict o id) :=
  h.trans (.of_cached (.refl _) fun _ _ _ => Session.cached?_of_evict)

end Serves

theorem Maintains.serves (h : s.Maintains t) : s.Serves t :=
  .of_cached h.world.roots fun className id o ho => by rwa [h.cached?] at ho

theorem Populates.serves (h : s.Populates t) : s.Serves t := by
  refine ⟨World.roots_of_types h.objects fun r => ?_, h.cachesObjects⟩
  unfold World.registry
  rw [h.registries]

end Workspace

namespace Session

open Workspace

variable {α : Type} {s t : Workspace} {o x : ObjectId}

theorem serves_of_maintains {m : SessionM α} (hm : ∀ t : Workspace, Preserves t.Maintains m) :
    Preserves s.Serves m :=
  fun t ht => ht.trans (hm t t (.refl t)).serves

theorem serves_act {a : Action α} (ha : ∀ v, Preserves (World.Roots v) a) :
    Preserves s.Serves (act a) := by
  intro t ht
  rw [act_apply]
  exact ht.trans (.of_cached (ha _ _ (.refl _)) fun _ _ _ ho => ho)

theorem serves_refresh : Preserves s.Serves refresh := by
  refine reads_get.preserves.bind fun t =>
    (serves_act fun _ => t.session.registry.roots_refresh).bind fun _ => Preserves.bind ?_ fun _ =>
      preserves_pure _
  refine preserves_modify fun u hu => hu.trans (.of_cached (.refl _) fun className id o ho => ?_)
  rwa [cached?, SessionCache.get?_foldl_init] at ho

theorem serves_newObject (className id : String) : Preserves s.Serves (newObject className id) := by
  refine (Session.reads_ask _).preserves.bind fun type => serves_act fun v w hw => ?_
  exact hw.trans (ObjectCall.roots_run ⟨0⟩ w (.single (.make type id)))

/-! ### Persisting and destroying -/

theorem serves_forget (h : s.Serves t) (oldId : String) : s.Serves (forget t x oldId) := by
  have hcleared : t.Serves { t with
      world := t.world.changeObject x fun object => { object with oldId := none } } :=
    .of_cached ((World.sameTypes_changeObject t.world x _).roots (by simp [World.changeObject]))
      fun _ _ _ ho => ho
  exact (h.trans hcleared).evict x oldId

theorem serves_prepare (targets : Targets) (x : ObjectId) :
    Preserves s.Serves (prepare targets x) := by
  have hrename : Preserves s.Serves (applyRename x) :=
    preserves_applyRename (fun _ oldId _ h => serves_forget h oldId)
      fun t oldId _ _ store _ _ _ _ h =>
        serves_forget (h.trans (Maintains.serves (t := withStore t store) ⟨rfl, .of_eq rfl rfl⟩)) oldId
  refine hrename.bind fun _ => reads_get.preserves.bind fun t => ?_
  dsimp only
  split
  · exact preserves_pure _
  · exact (serves_of_maintains fun _ => preserves_targetFor x).bind fun _ => preserves_pure _

theorem serves_writeObject (mode : Persistence) (targets : Targets)
    (hx : x.index < s.world.objects.size) : Preserves s.Serves (writeObject mode targets x) := by
  have hcache : Preserves s.Serves (modify fun s => s.cache x) := fun t ht =>
    ht.cache (Nat.lt_of_lt_of_le hx ht.roots.objects)
  refine reads_get.preserves.bind fun t => ?_
  dsimp only
  split
  · exact preserves_pure _
  · split
    · exact (serves_of_maintains fun _ => preserves_writeFields _ _ _ _).bind fun _ =>
        (serves_of_maintains fun _ => preserves_act x.preserves_clearTouched).bind fun _ => hcache
    · exact hcache

theorem serves_persist (mode : Persistence)
    (hexist : ∀ x ∈ persisted s mode.recursive o, x.index < s.world.objects.size) :
    s.Serves (persist mode o s).2 := by
  rw [persist_apply]
  have hprepare : Preserves s.Serves ((persisted s mode.recursive o).foldlM prepare .empty) :=
    .foldlM (fun targets x _ => serves_prepare targets x) .empty
  refine hprepare.bind (fun targets => ?_) s (.refl s)
  exact (Preserves.forM fun x hx => serves_writeObject mode targets (hexist x hx)).bind fun _ =>
    (reads_rootProxy targets o).preserves

theorem serves_destroy (o : ObjectId) : s.Serves (destroy o s).2 := by
  have hdrop : ∀ object, Preserves s.Serves (dropFromCache o object) := by
    intro object
    have hevict : ∀ id, Preserves s.Serves (modify fun s => s.evict o id) := fun id t ht =>
      ht.evict o id
    have hclear : Preserves s.Serves (act o.clearRename) := serves_act fun v w hw =>
      hw.trans ((World.sameTypes_changeObject w o _).roots (by simp [World.changeObject]))
    refine (hevict _).bind fun _ => ?_
    split
    · exact preserves_pure _
    · exact (hevict _).bind fun _ => hclear
  rw [destroy_apply]
  split
  · exact hdrop _ s (.refl s)
  · exact ((serves_of_maintains fun _ => preserves_onStore _).bind fun _ => hdrop _) s (.refl s)

/-! ### Jobs -/

/-- What can be asked of a session. -/
inductive Job
  | call (c : Call)
  | chore (c : Chore)
  | newObject (className id : String)
  | record (className id : String)
  | records (className : String)
  | createRecord (className id : String) (place : Option String)
  | cache (o : ObjectId)
  | evict (o : ObjectId) (id : String)
  | initCache (className : String)
  | refresh
  | createDatabase (name : String) (includes : List String)
  | setActive (name : String)
  | addInclude (included : String) (place : Option String)
  | removeInclude (included : String) (place : Option String)
  | commit (comment : String)

namespace Job

/-- Does a job for what it does to the session and its world. -/
def run : Job → SessionM Unit
  | .call c => do let _ ← c.run
  | .chore c => c.run
  | .newObject className id => do let _ ← Session.newObject className id
  | .record className id => do let _ ← Session.record className id
  | .records className => do let _ ← Session.records className
  | .createRecord className id place => do let _ ← Session.createRecord className id place
  | .cache o => modify fun s => s.cache o
  | .evict o id => modify fun s => s.evict o id
  | .initCache className => modify fun s => { s with session.cache := s.session.cache.init className }
  | .refresh => do let _ ← Session.refresh
  | .createDatabase name includes => Session.createDatabase name includes
  | .setActive name => Session.setActive name
  | .addInclude included place => Session.addInclude included place
  | .removeInclude included place => Session.removeInclude included place
  | .commit comment => Session.commit comment

/-- The objects that a job is about were made. -/
def Exists (s : Workspace) : Job → Prop
  | .chore c => ∀ x ∈ c.objects s, x.index < s.world.objects.size
  | .cache o => o.index < s.world.objects.size
  | _ => True

end Job

theorem serves_chore (c : Chore) (hexist : ∀ x ∈ c.objects s, x.index < s.world.objects.size) :
    s.Serves (c.run s).2 := by
  cases c with
  | add o recursive =>
    rw [Chore.state_run_add]
    exact serves_persist _ hexist
  | update policy o recursive =>
    rw [Chore.state_run_update]
    exact serves_persist _ hexist
  | destroy o => exact serves_destroy o

theorem serves_onStore (m : StoreM α) : Preserves s.Serves (onStore m) :=
  serves_of_maintains fun _ => preserves_onStore m

theorem serves_setActive (name : String) : Preserves s.Serves (setActive name) := by
  refine reads_get.preserves.bind fun t => ?_
  split
  · exact preserves_modify fun u hu => hu.trans (.of_cached (.refl _) fun _ _ _ ho => ho)
  · exact (reads_throw _).preserves

/-- Whatever a session does serves it, whether it succeeds or fails. -/
theorem Job.serves_run (job : Job) (hexist : job.Exists s) : s.Serves (job.run s).2 := by
  have done : ∀ {β : Type} {m : SessionM β}, Preserves s.Serves m →
      Preserves s.Serves (do let _ ← m : SessionM Unit) :=
    fun hm => hm.bind fun _ => preserves_pure _
  have read : ∀ {β : Type} {m : SessionM β}, (∀ t : Workspace, Preserves t.Maintains m) →
      Preserves s.Serves (do let _ ← m : SessionM Unit) :=
    fun hm => done (serves_of_maintains hm)
  have hstart := Serves.refl s
  cases job with
  | call c =>
    refine done (fun t ht => ht.trans ?_) s hstart
    exact (c.preserves_run t .refl).serves
  | chore c => exact serves_chore c hexist
  | newObject className id => exact done (serves_newObject className id) s hstart
  | record className id => exact read (fun _ => preserves_record className id) s hstart
  | records className => exact read (fun _ => preserves_records className) s hstart
  | createRecord className id place =>
    exact read (fun _ => preserves_createRecord className id place) s hstart
  | cache o => exact hstart.cache hexist
  | evict o id => exact hstart.evict o id
  | initCache className =>
    exact .of_cached (.refl _) fun _ _ _ ho => (SessionCache.get?_init ..).symm.trans ho
  | refresh => exact done serves_refresh s hstart
  | createDatabase name includes =>
    refine ((serves_onStore _).bind fun _ => Preserves.bind ?_ fun _ => done serves_refresh) s hstart
    exact preserves_modify fun u hu => hu.trans (.of_cached (.refl _) fun _ _ _ ho => ho)
  | setActive name => exact serves_setActive name s hstart
  | addInclude included place =>
    exact ((reads_database place).preserves.bind fun _ =>
      (serves_onStore _).bind fun _ => done serves_refresh) s hstart
  | removeInclude included place =>
    exact ((reads_database place).preserves.bind fun _ => serves_onStore _) s hstart
  | commit comment => exact serves_onStore _ s hstart

/-! ### Opening -/

theorem roots_opening {v : World} (policy : Policy) (r : RegistryId) (active : Option String) :
    Preserves v.Roots (opening policy r active) := by
  intro w hw
  have hserves := serves_refresh ⟨{ registry := r, policy, active }, w⟩ (.refl _)
  rw [opening]
  rcases hrefresh : refresh ⟨{ registry := r, policy, active }, w⟩ with ⟨result, t⟩
  rw [hrefresh] at hserves
  exact hw.trans hserves.roots

theorem roots_openWith {v : World} (options : Options) : Preserves v.Roots (openWith options) := by
  intro w hw
  by_cases hloaded : ∀ name, options.active = some name → w.store.loaded.contains name = true
  · rw [openWith_eq hloaded]
    cases options.registry with
    | some r => exact roots_opening _ r _ w hw
    | none =>
      have hnew := Action.roots_newRegistry w hw
      rw [Action.newRegistry_apply] at hnew
      exact roots_opening _ _ _ _ hnew
  · simp only [Classical.not_forall] at hloaded
    obtain ⟨name, hname, hmissing⟩ := hloaded
    rwa [openWith_of_not_loaded hname hmissing]

/-- Nothing is cached in a new session. -/
theorem cachesObjects_openWith {options : Options} {v w : World} {session : Session}
    (hrun : openWith options v = (.ok session, w)) : CachesObjects ⟨session, w⟩ := by
  have opened : ∀ {u : World} {policy r active}, opening policy r active u = (.ok session, w) →
      CachesObjects ⟨session, w⟩ := by
    intro u policy r active hopen
    obtain ⟨added, hrefresh⟩ := opening_eq_ok.mp hopen
    have hserves := serves_refresh ⟨{ registry := r, policy, active }, u⟩ (.refl _)
    rw [hrefresh] at hserves
    exact hserves.cached fun className id o ho => by
      simp [cached?, SessionCache.get?, SessionCache.index] at ho
  rw [openWith_eq (loaded_of_openWith hrun)] at hrun
  cases hregistry : options.registry with
  | some r => exact opened (hregistry ▸ hrun)
  | none => exact opened (hregistry ▸ hrun)

end Session

/-! ### Runs -/

/-- Sessions that work side by side in one world. -/
structure System where
  world : World := {}
  sessions : List Session := []

namespace System

/-- What can happen to sessions and their world. -/
inductive Event
  | store (op : Operation)
  | newRegistry
  | refresh (r : RegistryId)
  | derive (r : RegistryId) (classNames : List String)
  | object (r : RegistryId) (call : ObjectCall)
  | readObject (o : ObjectId) (name : String)
  | newProxy (r : RegistryId) (record : RecordRef)
  | readProxy (p : ProxyId) (name : String)
  | writeProxy (p : ProxyId) (name : String) (f : ProxyField)
  /-- Opening one more session, with a registry of its own or a shared one. -/
  | openWith (options : Session.Options)
  | close (index : Nat)
  | ask (index : Nat) (job : Session.Job)

/-- What an event makes of the sessions and their world, whether it succeeds or fails. -/
def run (y : System) : Event → System
  | .store op => { y with world := (Action.onStore op.run y.world).2 }
  | .newRegistry => { y with world := (Action.newRegistry y.world).2 }
  | .refresh r => { y with world := (r.refresh y.world).2 }
  | .derive r classNames => { y with world := (r.derive classNames y.world).2 }
  | .object r call => { y with world := call.run r y.world }
  | .readObject o name => { y with world := (o.get name y.world).2 }
  | .newProxy r record => { y with world := (Action.newProxy r record y.world).2 }
  | .readProxy p name => { y with world := (p.get name y.world).2 }
  | .writeProxy p name f => { y with world := (p.set name f y.world).2 }
  | .openWith options =>
    match Session.openWith options y.world with
    | (.ok session, world) => ⟨world, y.sessions ++ [session]⟩
    | (.error _, world) => { y with world }
  | .close index => { y with sessions := y.sessions.eraseIdx index }
  | .ask index job =>
    match y.sessions[index]? with
    | some session =>
      let s := (job.run ⟨session, y.world⟩).2
      ⟨s.world, y.sessions.set index s.session⟩
    | none => y

/-- The objects that an event is about were made. -/
def Exists (y : System) : Event → Prop
  | .ask index job => ∀ session, y.sessions[index]? = some session → job.Exists ⟨session, y.world⟩
  | _ => True

/-- The types of every registry rest on each other, and every session caches objects that exist. -/
structure Sound (y : System) : Prop where
  rooted : ∀ r, (y.world.registry r).Rooted
  cached : ∀ session ∈ y.sessions, Workspace.CachesObjects ⟨session, y.world⟩

variable {y : System} {w : World}

theorem Sound.of_roots (h : y.Sound) (hroots : y.world.Roots w) :
    Sound { y with world := w } where
  rooted r := hroots.rooted r (h.rooted r)
  cached session hsession className id o ho :=
    Nat.lt_of_lt_of_le (h.cached session hsession className id o ho) hroots.objects

/-- Every event leaves sessions sound. -/
theorem Sound.run (h : y.Sound) (event : Event) (hexist : y.Exists event) : (y.run event).Sound := by
  have action : ∀ {α : Type} {m : Action α}, Preserves y.world.Roots m →
      Sound { y with world := (m y.world).2 } := fun hm => h.of_roots (hm y.world (.refl _))
  cases event with
  | store op => exact action (World.preserves_roots fun _ => Action.preserves_onStore op.run)
  | newRegistry => exact action Action.roots_newRegistry
  | refresh r => exact action r.roots_refresh
  | derive r classNames => exact action (r.roots_derive classNames)
  | object r call => exact h.of_roots (call.roots_run r y.world)
  | readObject o name => exact action (World.preserves_roots fun _ => o.preserves_get name)
  | newProxy r record =>
    exact action (World.preserves_roots fun _ => Action.preserves_newProxy r record)
  | readProxy p name => exact action (World.preserves_roots fun _ => (World.Maintains.keptByProxies _).get p name)
  | writeProxy p name f => exact action (World.preserves_roots fun _ =>
      (World.Maintains.keptByProxies _).set p name f)
  | openWith options =>
    rw [System.run]
    have hothers := action (Session.roots_openWith options)
    rcases hrun : Session.openWith options y.world with ⟨e | session, w⟩
    · rwa [hrun] at hothers
    · rw [hrun] at hothers
      refine ⟨hothers.rooted, fun other hother => ?_⟩
      rcases List.mem_append.mp hother with hother | hother
      · exact hothers.cached other hother
      · obtain rfl := List.mem_singleton.mp hother
        exact Session.cachesObjects_openWith hrun
  | close index =>
    exact ⟨h.rooted, fun other hother => h.cached other (List.mem_of_mem_eraseIdx hother)⟩
  | ask index job =>
    rw [System.run]
    cases hsession : y.sessions[index]? with
    | none => exact h
    | some session =>
      have hserves := job.serves_run (hexist session hsession)
      have hothers := h.of_roots hserves.roots
      refine ⟨hothers.rooted, fun other hother => ?_⟩
      rcases List.mem_or_eq_of_mem_set hother with hother | rfl
      · exact hothers.cached other hother
      · exact hserves.cached (h.cached session (List.mem_of_getElem? hsession))

end System

end RecordGraph
