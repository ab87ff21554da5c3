import RecordGraph.Proofs.Session.Loading

/-!
Whole hydrations.  The bounded loop runs as the loop without a bound does: what waits and what may
still have to wait never exceed the steps, so that the loop ends because nothing waits any more.  When
a hydration ends well, every object that it made mirrors its record.
-/

namespace RecordGraph

open RecordGraph.Computation Workspace

namespace Session

/-- The end of a computation, whatever it gives back. -/
def outcome {α : Type} (x : Except Error α) : Except Error Unit := x.map fun _ => ()

/-- Loading all that waits, for as long as it takes. -/
inductive Drains : List Pending → Workspace → Except Error Unit → Workspace → Prop
  | done (s : Workspace) : Drains [] s (.ok ()) s
  | failed {next : Pending} {pending : List Pending} {s t : Workspace} {e : Error}
      (load : loadFields next s = (.error e, t)) : Drains (next :: pending) s (.error e) t
  | next {next : Pending} {pending found : List Pending} {s t u : Workspace}
      {result : Except Error Unit} (load : loadFields next s = (.ok found, t))
      (rest : Drains (found.reverse ++ pending) t result u) : Drains (next :: pending) s result u

/-- Hydrating a record, for as long as it takes. -/
inductive Hydrates (p : ProxyId) : Workspace → Except Error Unit → Workspace → Prop
  | failed {s t : Workspace} {e : Error} (find : objectOf p s = (.error e, t)) :
      Hydrates p s (.error e) t
  | known {s t : Workspace} {o : ObjectId} (find : objectOf p s = (.ok (o, false), t)) :
      Hydrates p s (.ok ()) t
  | made {s t u : Workspace} {o : ObjectId} {result : Except Error Unit}
      (find : objectOf p s = (.ok (o, true), t)) (rest : Drains [⟨p, o⟩] t result u) :
      Hydrates p s result u

/-- Doing something for each item of a list until it fails. -/
inductive Each {α : Type} (does : α → Workspace → Except Error Unit → Workspace → Prop) :
    List α → Workspace → Except Error Unit → Workspace → Prop
  | done (s : Workspace) : Each does [] s (.ok ()) s
  | failed {x : α} {xs : List α} {s t : Workspace} {e : Error} (first : does x s (.error e) t) :
      Each does (x :: xs) s (.error e) t
  | next {x : α} {xs : List α} {s t u : Workspace} {result : Except Error Unit}
      (first : does x s (.ok ()) t) (rest : Each does xs t result u) :
      Each does (x :: xs) s result u

variable {base s t : Workspace} {D : RecordRef → Prop} {pending : List Pending}

/-! ### Single records -/

theorem loadPending_run (hd : Hydratable base D) (steps : Nat) (hs : Hydrating base D pending s)
    (hsteps : pending.length + s.uncached ≤ steps) :
    Drains pending s (loadPending steps pending s).1 (loadPending steps pending s).2
      ∧ ∀ t, loadPending steps pending s = (.ok (), t) → Hydrating base D [] t ∧ s.Grows t := by
  induction steps generalizing s pending with
  | zero =>
    have hnil : pending = [] := List.eq_nil_of_length_eq_zero (by omega)
    subst hnil
    refine ⟨.done s, ?_⟩
    intro t hrun
    obtain ⟨-, rfl⟩ := Prod.mk.inj hrun
    exact ⟨hs, .refl s⟩
  | succ steps ih =>
    cases pending with
    | nil =>
      refine ⟨.done s, ?_⟩
      intro t hrun
      obtain ⟨-, rfl⟩ := Prod.mk.inj hrun
      exact ⟨hs, .refl s⟩
    | cons next pending =>
      rw [loadPending, bind_apply]
      rcases hload : loadFields next s with ⟨e | found, t⟩
      · exact ⟨.failed hload, fun t h => by simp at h⟩
      · obtain ⟨hloaded, hgrows, huncached⟩ := loadFields_run hs hd hload
        have hnext : Hydrating base D (found.reverse ++ pending) t :=
          hloaded.of_mem_iff fun other => by simp
        have hlength : (found.reverse ++ pending).length + t.uncached ≤ steps := by
          rw [List.length_cons] at hsteps
          rw [List.length_append, List.length_reverse]
          omega
        obtain ⟨hdrains, hdone⟩ := ih hnext hlength
        refine ⟨.next hload hdrains, ?_⟩
        intro u hrun
        obtain ⟨hend, hgrows'⟩ := hdone u hrun
        exact ⟨hend, hgrows.trans hgrows'⟩

/-- Hydrating a record of the domain ends, and gives the object that stands for the record. -/
theorem hydrate_run {p : ProxyId} (hd : Hydratable base D) (hs : Hydrating base D [] s)
    (hviewed : base.world.proxies.size ≤ p.index) (hlt : p.index < s.world.proxies.size)
    (hD : D (s.world.recordOf p)) :
    Hydrates p s (outcome (hydrate p s).1) (hydrate p s).2
      ∧ ∀ o t, hydrate p s = (.ok o, t) → Hydrating base D [] t ∧ s.Grows t ∧ t.Stands o
        ∧ (t.world.object o).record = s.world.recordOf p := by
  rw [hydrate, bind_apply]
  rcases hfind : objectOf p s with ⟨e | ⟨o, new⟩, t⟩
  · exact ⟨.failed hfind, fun o t h => by simp at h⟩
  · have hfinds := objectOf_run hs hd hviewed hlt hD hfind
    obtain ⟨hstands, hrecord⟩ := hfinds.stands _ List.mem_cons_self
    cases new with
    | false =>
      refine ⟨.known hfind, ?_⟩
      intro o' t' hrun
      obtain ⟨heq, rfl⟩ := Prod.mk.inj hrun
      cases heq
      exact ⟨hfinds.hydrating, hfinds.grows, hstands, hrecord⟩
    | true =>
      have hsteps : [Pending.mk p o].length + t.uncached ≤ t.world.store.recordCount + 1 := by
        have hle := t.uncached_le
        rw [List.length_singleton]
        omega
      have hwaits : Hydrating base D [⟨p, o⟩] t := hfinds.hydrating
      obtain ⟨hdrains, hdone⟩ := loadPending_run hd _ hwaits hsteps
      simp only [if_true]
      rw [bind_of_ok (get_apply t), bind_apply]
      cases hload : loadPending (t.world.store.recordCount + 1) [⟨p, o⟩] t with
      | mk result u =>
        rw [hload] at hdrains
        cases result with
        | error e => exact ⟨.made hfind hdrains, fun o t h => by simp at h⟩
        | ok v =>
          refine ⟨.made hfind hdrains, ?_⟩
          intro o' t' hrun
          obtain ⟨heq, rfl⟩ := Prod.mk.inj hrun
          cases heq
          obtain ⟨hend, hgrows⟩ := hdone u hload
          exact ⟨hend, hfinds.grows.trans hgrows, hgrows.stands hstands,
            (hgrows.recordOf hstands.bound).trans hrecord⟩

/-! ### Records by class and id -/

/-- Making a proxy for a record. -/
theorem proxyFor_run {r : RecordRef} {p : ProxyId} (hs : Hydrating base D pending s)
    (hrun : proxyFor r s = (.ok p, t)) :
    Hydrating base D pending t ∧ s.Grows t ∧ base.world.proxies.size ≤ p.index
      ∧ p.index < t.world.proxies.size ∧ t.world.recordOf p = r := by
  obtain ⟨schema, hschema, rfl, rfl⟩ := proxyFor_eq_ok hrun
  have hextends := World.extends_pushProxy s.world
    { record := r, schema, registry := s.session.registry }
  have htruthful : (s.world.pushProxy
      { record := r, schema, registry := s.session.registry }).Truthful base.session.registry
      fun q => base.world.proxies.size ≤ q.index := by
    have hknown : (s.world.registry base.session.registry).schema r.className = .ok schema :=
      hs.grown.registryId ▸ hschema
    rw [hs.grown.registryId]
    exact hs.truthful.pushProxy hknown
  refine ⟨hs.of_extends hextends htruthful, grows_of_extends hextends,
    hs.grown.proxies, by simp [World.pushProxy], ?_⟩
  simp [World.recordOf, World.proxy_pushProxy]

theorem record_run {className id : String} {p : ProxyId} (hs : Hydrating base D pending s)
    (hrun : record className id s = (.ok p, t)) :
    Hydrating base D pending t ∧ s.Grows t ∧ base.world.proxies.size ≤ p.index
      ∧ p.index < t.world.proxies.size
      ∧ base.world.store.find className id = some (t.world.recordOf p) := by
  obtain ⟨r, s₁, hget, hproxy⟩ := bind_eq_ok.mp hrun
  obtain ⟨hfind, rfl⟩ := askStore_run hget
  obtain ⟨hnext, hgrows, hviewed, hlt, rfl⟩ := proxyFor_run hs hproxy
  rw [hs.grown.store] at hfind
  exact ⟨hnext, hgrows, hviewed, hlt, Store.getRecord_eq_ok.mp hfind⟩

theorem records_run {className : String} {ps : List ProxyId} (hs : Hydrating base D pending s)
    (hrun : records className s = (.ok ps, t)) :
    Hydrating base D pending t ∧ s.Grows t ∧ ∃ rs, base.world.store.records className = .ok rs
      ∧ ∀ p ∈ ps, base.world.proxies.size ≤ p.index ∧ p.index < t.world.proxies.size
        ∧ t.world.recordOf p ∈ rs := by
  obtain ⟨rs, s₁, hget, hproxies⟩ := bind_eq_ok.mp hrun
  obtain ⟨hrecords, rfl⟩ := askStore_run hget
  rw [hs.grown.store] at hrecords
  suffices h : Hydrating base D pending t ∧ s.Grows t ∧ ∀ p ∈ ps,
      base.world.proxies.size ≤ p.index ∧ p.index < t.world.proxies.size
        ∧ t.world.recordOf p ∈ rs from ⟨h.1, h.2.1, rs, hrecords, h.2.2⟩
  refine mapM_run (fun _ ps t => Hydrating base D pending t ∧ s.Grows t ∧ ∀ p ∈ ps,
    base.world.proxies.size ≤ p.index ∧ p.index < t.world.proxies.size
      ∧ t.world.recordOf p ∈ rs) hproxies ⟨hs, .refl s, by simp⟩ ?_
  rintro done ps r p a b hr ⟨hhydrating, hgrows, hall⟩ hstep
  obtain ⟨hnext, hstep', hviewed, hlt, hrecord⟩ := proxyFor_run hhydrating hstep
  refine ⟨hnext, hgrows.trans hstep', ?_⟩
  intro q hq
  rcases List.mem_append.mp hq with hq | hq
  · obtain ⟨hqviewed, hqlt, hqrecord⟩ := hall q hq
    exact ⟨hqviewed, Nat.lt_of_lt_of_le hqlt hstep'.proxies, (hstep'.record q hqlt) ▸ hqrecord⟩
  · obtain rfl := List.mem_singleton.mp hq
    exact ⟨hviewed, hlt, hrecord ▸ hr⟩

/-! ### Calls -/

/-- Getting all records of a class, for as long as it takes. -/
inductive GetsAll (className : String) : Workspace → Except Error Unit → Workspace → Prop
  | failed {s t : Workspace} {e : Error} (list : records className s = (.error e, t)) :
      GetsAll className s (.error e) t
  | listed {s t u : Workspace} {ps : List ProxyId} {result : Except Error Unit}
      (list : records className s = (.ok ps, t)) (rest : Each Hydrates ps t result u) :
      GetsAll className s result u

/-- A call that gives the objects of records. -/
inductive Call
  | get (className id : String)
  | getAll (className : String)
  | materializeAll

/-- Answers a call. -/
def Call.run : Call → SessionM (List ObjectId)
  | .get className id => do pure [← getObject className id]
  | .getAll className => Session.getAll className
  | .materializeAll => Session.materializeAll

/-- Answering a call, for as long as it takes. -/
inductive Call.Ends : Call → Workspace → Except Error Unit → Workspace → Prop
  | cached {className id : String} {s : Workspace} {o : ObjectId}
      (known : s.cached? className id = some o) : Ends (.get className id) s (.ok ()) s
  | missing {className id : String} {s t : Workspace} {e : Error}
      (unknown : s.cached? className id = none) (find : record className id s = (.error e, t)) :
      Ends (.get className id) s (.error e) t
  | found {className id : String} {s t u : Workspace} {p : ProxyId} {result : Except Error Unit}
      (unknown : s.cached? className id = none) (find : record className id s = (.ok p, t))
      (rest : Hydrates p t result u) : Ends (.get className id) s result u
  | getAll {className : String} {s t : Workspace} {result : Except Error Unit}
      (all : GetsAll className s result t) : Ends (.getAll className) s result t
  | materializeAll {s t : Workspace} {result : Except Error Unit}
      (all : Each GetsAll s.registry.types.keys s result t) : Ends .materializeAll s result t

theorem getObject_run (className id : String) (hd : Hydratable base D) (hs : Hydrating base D [] s)
    (hD : ∀ r, base.world.store.find className id = some r → D r) :
    Call.Ends (.get className id) s (outcome (getObject className id s).1) (getObject className id s).2
      ∧ ∀ o t, getObject className id s = (.ok o, t) → Hydrating base D [] t ∧ s.Grows t
        ∧ t.Stands o := by
  rw [getObject, bind_of_ok (get_apply s)]
  cases hcached : s.cached? className id with
  | some o =>
    refine ⟨.cached hcached, ?_⟩
    intro o' t hrun
    obtain ⟨heq, rfl⟩ := Prod.mk.inj hrun
    cases heq
    exact ⟨hs, .refl s, (hs.cached _ _ o hcached).stands⟩
  | none =>
    dsimp only
    rw [bind_apply]
    rcases hfind : record className id s with ⟨e | p, t⟩
    · exact ⟨.missing hcached hfind, fun o t h => by simp at h⟩
    · obtain ⟨hnext, hgrows, hviewed, hlt, hfound⟩ := record_run hs hfind
      obtain ⟨hhydrates, hdone⟩ := hydrate_run hd hnext hviewed hlt (hD _ hfound)
      refine ⟨.found hcached hfind hhydrates, ?_⟩
      intro o u hrun
      obtain ⟨hend, hgrows', hstands, -⟩ := hdone o u hrun
      exact ⟨hend, hgrows.trans hgrows', hstands⟩

theorem mapM_hydrate_run {ps : List ProxyId} (hd : Hydratable base D) (hs : Hydrating base D [] s)
    (hps : ∀ p ∈ ps, base.world.proxies.size ≤ p.index ∧ p.index < s.world.proxies.size
      ∧ D (s.world.recordOf p)) :
    Each Hydrates ps s (outcome (ps.mapM hydrate s).1) (ps.mapM hydrate s).2
      ∧ ∀ os t, ps.mapM hydrate s = (.ok os, t) → Hydrating base D [] t ∧ s.Grows t
        ∧ ∀ o ∈ os, t.Stands o := by
  induction ps generalizing s with
  | nil =>
    refine ⟨.done s, ?_⟩
    intro os t hrun
    obtain ⟨heq, rfl⟩ := Prod.mk.inj hrun
    cases heq
    exact ⟨hs, .refl s, by simp⟩
  | cons p ps ih =>
    obtain ⟨hviewed, hlt, hD⟩ := hps p List.mem_cons_self
    obtain ⟨hfirst, hdone⟩ := hydrate_run hd hs hviewed hlt hD
    rw [List.mapM_cons, bind_apply]
    rcases hrun : hydrate p s with ⟨e | o, t⟩
    · rw [hrun] at hfirst
      exact ⟨.failed hfirst, fun os t h => by simp at h⟩
    · rw [hrun] at hfirst
      obtain ⟨hnext, hgrows, hstands, -⟩ := hdone o t hrun
      obtain ⟨hrest, hdone'⟩ := ih hnext fun q hq =>
        have h := hps q (List.mem_cons_of_mem p hq)
        ⟨h.1, Nat.lt_of_lt_of_le h.2.1 hgrows.proxies, (hgrows.record q h.2.1).symm ▸ h.2.2⟩
      dsimp only
      rw [bind_apply]
      rcases hmapM : ps.mapM hydrate t with ⟨e | os, u⟩
      · rw [hmapM] at hrest
        exact ⟨.next hfirst hrest, fun os t h => by simp at h⟩
      · rw [hmapM] at hrest
        refine ⟨.next hfirst hrest, ?_⟩
        intro os' u' hpure
        obtain ⟨heq, rfl⟩ := Prod.mk.inj hpure
        cases heq
        obtain ⟨hend, hgrows', hall⟩ := hdone' os u hmapM
        refine ⟨hend, hgrows.trans hgrows', ?_⟩
        intro o' ho'
        rcases List.mem_cons.mp ho' with rfl | ho'
        · exact hgrows'.stands hstands
        · exact hall o' ho'

theorem getAll_run {className : String} (hd : Hydratable base D) (hs : Hydrating base D [] s)
    (hD : ∀ rs, base.world.store.records className = .ok rs → ∀ r ∈ rs, D r) :
    GetsAll className s (outcome (getAll className s).1) (getAll className s).2
      ∧ ∀ os t, getAll className s = (.ok os, t) → Hydrating base D [] t ∧ s.Grows t
        ∧ ∀ o ∈ os, t.Stands o := by
  rw [getAll, bind_apply]
  rcases hlist : records className s with ⟨e | ps, t⟩
  · exact ⟨.failed hlist, fun os t h => by simp at h⟩
  · obtain ⟨hnext, hgrows, rs, hrecords, hall⟩ := records_run hs hlist
    obtain ⟨heach, hdone⟩ := mapM_hydrate_run hd hnext fun p hp =>
      ⟨(hall p hp).1, (hall p hp).2.1, hD rs hrecords _ (hall p hp).2.2⟩
    refine ⟨.listed hlist heach, ?_⟩
    intro os u hrun
    obtain ⟨hend, hgrows', hstand⟩ := hdone os u hrun
    exact ⟨hend, hgrows.trans hgrows', hstand⟩

theorem foldlM_materializeClass_run (classes : List String) {found : OrderedMap String ObjectId}
    (hd : Hydratable base D) (hs : Hydrating base D [] s)
    (hD : ∀ className rs, base.world.store.records className = .ok rs → ∀ r ∈ rs, D r)
    (hfound : ∀ o ∈ found.values, s.Stands o) :
    Each GetsAll classes s (outcome (classes.foldlM materializeClass found s).1)
        (classes.foldlM materializeClass found s).2
      ∧ ∀ all t, classes.foldlM materializeClass found s = (.ok all, t) →
        Hydrating base D [] t ∧ s.Grows t ∧ ∀ o ∈ all.values, t.Stands o := by
  induction classes generalizing s found with
  | nil =>
    refine ⟨.done s, ?_⟩
    intro all t hrun
    obtain ⟨heq, rfl⟩ := Prod.mk.inj hrun
    cases heq
    exact ⟨hs, .refl s, hfound⟩
  | cons className classes ih =>
    obtain ⟨hfirst, hdone⟩ := getAll_run hd hs (hD className)
    rw [List.foldlM_cons, bind_apply, materializeClass, bind_apply]
    rcases hrun : getAll className s with ⟨e | os, t⟩
    · rw [hrun] at hfirst
      exact ⟨.failed hfirst, fun all t h => by simp at h⟩
    · rw [hrun] at hfirst
      obtain ⟨hnext, hgrows, hstand⟩ := hdone os t hrun
      dsimp only
      rw [bind_of_ok (get_apply t), pure_apply]
      dsimp only
      obtain ⟨hrest, hdone'⟩ := ih hnext fun o ho => by
        rcases OrderedMap.mem_values_foldl_insertNew ho with hold | ⟨o', ho', rfl⟩
        · exact hgrows.stands (hfound o hold)
        · exact hstand o' ho'
      refine ⟨.next hfirst hrest, ?_⟩
      intro all u hfold
      obtain ⟨hend, hgrows', hall⟩ := hdone' all u hfold
      exact ⟨hend, hgrows.trans hgrows', hall⟩

theorem exists_cached_of_mem_objects {c : SessionCache} {nameOf : ObjectId → String} {o : ObjectId}
    (ho : o ∈ c.objects nameOf) : ∃ className id, c.get? className id = some o := by
  obtain ⟨index, hindex, hvalue⟩ := List.mem_flatMap.mp (OrderedMap.mem_of_mem_distinctBy ho)
  obtain ⟨className, hclass⟩ := OrderedMap.exists_get?_of_mem_values hindex
  obtain ⟨id, hid⟩ := OrderedMap.exists_get?_of_mem_values hvalue
  exact ⟨className, id, by simp [SessionCache.get?, SessionCache.index, hclass, hid]⟩

/-- The cached objects by their names. -/
def cachedNames (s : Workspace) : OrderedMap String ObjectId :=
  .ofList ((s.session.cache.objects s.world.nameOf).map fun o => (s.world.nameOf o, o))

theorem materializeAll_apply (s : Workspace) : materializeAll s
    = ((s.registry.types.keys.foldlM materializeClass (cachedNames s) s).1.map OrderedMap.values,
      (s.registry.types.keys.foldlM materializeClass (cachedNames s) s).2) := by
  rw [materializeAll, bind_of_ok (get_apply s)]
  exact map_apply _ _ s

theorem materializeAll_eq_ok {os : List ObjectId} : materializeAll s = (.ok os, t)
    ↔ ∃ found, s.registry.types.keys.foldlM materializeClass (cachedNames s) s = (.ok found, t)
      ∧ found.values = os := by
  rw [materializeAll_apply]
  rcases s.registry.types.keys.foldlM materializeClass (cachedNames s) s with ⟨e | found, u⟩
  · simp [Except.map]
  · constructor
    · intro h
      obtain ⟨heq, rfl⟩ := Prod.mk.inj h
      exact ⟨found, rfl, Except.ok.inj heq⟩
    · rintro ⟨_, ⟨rfl, rfl⟩, rfl⟩
      rfl

theorem materializeClass_eq_ok {found next : OrderedMap String ObjectId} {className : String} :
    materializeClass found className s = (.ok next, t)
      ↔ ∃ os, getAll className s = (.ok os, t)
        ∧ os.foldl (fun found o => found.insertNew (t.world.nameOf o) o) found = next := by
  rw [materializeClass, bind_eq_ok]
  constructor
  · rintro ⟨os, u, hget, hrest⟩
    rw [bind_of_ok (get_apply u)] at hrest
    obtain ⟨heq, rfl⟩ := Prod.mk.inj hrest
    exact ⟨os, hget, Except.ok.inj heq⟩
  · rintro ⟨os, hget, rfl⟩
    exact ⟨os, t, hget, bind_of_ok (get_apply t)⟩

/-- What stands under a name is cached and has the name. -/
theorem of_get?_cachedNames {name : String} {o : ObjectId} (h : (cachedNames s).get? name = some o) :
    s.world.nameOf o = name ∧ ∃ className id, s.cached? className id = some o := by
  refine OrderedMap.of_get?_ofList (fun name o => s.world.nameOf o = name
    ∧ ∃ className id, s.cached? className id = some o) (fun e he => ?_) h
  obtain ⟨o, ho, rfl⟩ := List.mem_map.mp he
  exact ⟨rfl, exists_cached_of_mem_objects ho⟩

theorem materializeAll_run (hd : Hydratable base D) (hs : Hydrating base D [] s)
    (hD : ∀ className rs, base.world.store.records className = .ok rs → ∀ r ∈ rs, D r) :
    Call.Ends .materializeAll s (outcome (materializeAll s).1) (materializeAll s).2
      ∧ ∀ os t, materializeAll s = (.ok os, t) → Hydrating base D [] t ∧ s.Grows t
        ∧ ∀ o ∈ os, t.Stands o := by
  have hfound : ∀ o ∈ (cachedNames s).values, s.Stands o := by
    intro o ho
    obtain ⟨name, hget⟩ := OrderedMap.exists_get?_of_mem_values ho
    obtain ⟨-, className, id, hcached⟩ := of_get?_cachedNames hget
    exact (hs.cached className id o hcached).stands
  obtain ⟨heach, hdone⟩ :=
    foldlM_materializeClass_run s.registry.types.keys hd hs hD hfound
  rw [materializeAll_apply]
  rcases hrun : s.registry.types.keys.foldlM materializeClass (cachedNames s) s with ⟨e | all, t⟩
  · rw [hrun] at heach
    exact ⟨.materializeAll heach, fun os t h => by simp [Except.map] at h⟩
  · rw [hrun] at heach
    refine ⟨.materializeAll heach, ?_⟩
    intro os u hpure
    obtain ⟨heq, rfl⟩ := Prod.mk.inj hpure
    cases heq
    exact hdone all t hrun

end Session

end RecordGraph
