import RecordGraph.Proofs.Session.Completeness

/-!
What is left of a database call that fails.  Making a database and adding an include first change the
store and then pick up the classes that this shows.  Where the store refuses the change nothing
happened; where a class cannot be picked up the change stays.
-/

namespace RecordGraph

open RecordGraph.Computation

/-! ### What the store accepts -/

namespace Store

variable {s t : Store} {name included : String} {includes : List String}

/-- A database of a name that includes some names can be made. -/
structure CanCreate (s : Store) (name : String) (includes : List String) : Prop where
  new : s.databases.contains name = false
  known : ∀ i ∈ includes, s.checkInclude i = .ok ()

/-- A database can include a name. -/
structure CanInclude (s : Store) (name included : String) : Prop where
  known : s.databases.contains name = true
  includable : s.checkInclude included = .ok ()

/-- A database includes a name. -/
def Includes (s : Store) (name included : String) : Prop :=
  ∃ d, s.databases.get? name = some d ∧ included ∈ d.includes

/-- The store with a new database that is loaded. -/
def withLoaded (s : Store) (name : String) (includes : List String) : Store :=
  { s.withDatabase name includes with loaded := s.loaded ++ [name] }

theorem forM_checkInclude_of_known (h : ∀ i ∈ includes, s.checkInclude i = .ok ()) :
    includes.forM (fun i => Store.ask fun s => s.checkInclude i) s = (.ok (), s) := by
  induction includes with
  | nil => rfl
  | cons i includes ih =>
    obtain ⟨hi, hrest⟩ := List.forall_mem_cons.mp h
    rw [List.forM, bind_of_ok (by rw [ask_apply, hi])]
    exact ih hrest

theorem createDatabase_of_canCreate (h : s.CanCreate name includes) :
    Store.createDatabase name includes s = (.ok (), s.withLoaded name includes) := by
  have hadd : Store.addDatabase name includes s = (.ok (), s.withDatabase name includes) := by
    rw [Store.addDatabase, bind_of_ok (get_apply s)]
    simp only [h.new, Bool.false_eq_true, if_false]
    rw [bind_of_ok (forM_checkInclude_of_known h.known)]
    rfl
  rw [Store.createDatabase, bind_of_ok hadd]
  rfl

/-- Making a database fails exactly where it cannot be made, and then it changes nothing. -/
theorem createDatabase_of_not_canCreate (h : ¬ s.CanCreate name includes) :
    ∃ e, Store.createDatabase name includes s = (.error e, s) := by
  rcases hrun : (Operation.createDatabase name includes).run s with ⟨e | u, t⟩
  · have hatomic : Atomic (Operation.createDatabase name includes).run := atomic_run nofun
    obtain rfl := hatomic s e t hrun
    exact ⟨e, hrun⟩
  · cases transition_of_run hrun with
    | createDatabase hnew hknown => exact absurd ⟨hnew, hknown⟩ h

theorem addInclude_of_canInclude (h : s.CanInclude name included) :
    Store.addInclude name included s = (.ok (), s.adjust name (Database.including included)) := by
  rw [Store.addInclude, bind_of_ok (by rw [ask_apply, h.includable])]
  exact changeDatabase_eq_ok.mpr ⟨h.known, rfl⟩

theorem addInclude_of_not_canInclude (h : ¬ s.CanInclude name included) :
    ∃ e, Store.addInclude name included s = (.error e, s) := by
  rcases hrun : (Operation.addInclude name included).run s with ⟨e | u, t⟩
  · have hatomic : Atomic (Operation.addInclude name included).run := atomic_run nofun
    obtain rfl := hatomic s e t hrun
    exact ⟨e, hrun⟩
  · cases transition_of_run hrun with
    | addInclude hknown hincludable => exact absurd ⟨hknown, hincludable⟩ h

/-- What a database includes once it was let include a name. -/
theorem includesOf_adjust_including (included : String) {d : Database}
    (hd : s.databases.get? name = some d) :
    (s.adjust name (Database.including included)).includesOf name
      = .ok (if d.includes.contains included then d.includes else d.includes ++ [included]) := by
  have hget : (s.adjust name (Database.including included)).databases.get? name
      = some (Database.including included d) := by
    rw [get?_adjust, if_pos rfl, hd, Option.map_some]
  rw [includesOf, database_eq_ok.mpr hget]
  unfold Database.including
  split <;> rfl

end Store

namespace Session

variable {s t : Workspace} {e : Error} {name included target : String} {includes : List String}
  {place : Option String}

theorem onStore_apply {α : Type} (m : StoreM α) (s : Workspace) : onStore m s
    = ((m s.world.store).1, { s with world := { s.world with store := (m s.world.store).2 } }) := rfl

/-! ### What a failing refresh leaves -/

/-- A refresh touches neither the store nor the active database, whether it succeeds or fails. -/
theorem refresh_untouched (s : Workspace) :
    (refresh s).2.world.store = s.world.store ∧ (refresh s).2.session.active = s.session.active := by
  have hworld := s.session.registry.preserves_changesOnly_refresh s.world (.refl _ _)
  have hact := act_apply s.session.registry.refresh s
  generalize hrun : s.session.registry.refresh s.world = x at hworld hact
  obtain ⟨result, w⟩ := x
  rw [refresh, bind_of_ok (get_apply s)]
  cases result with
  | error e =>
    rw [bind_of_error hact]
    exact ⟨hworld.store, rfl⟩
  | ok added =>
    rw [bind_of_ok hact, bind_of_ok (modify_apply _ _), pure_apply]
    exact ⟨hworld.store, rfl⟩

/-- The session and its world once a database was made, before its classes are picked up. -/
def withCreated (s : Workspace) (name : String) (includes : List String) : Workspace :=
  { session := { s.session with active := some name }
    world := { s.world with store := s.world.store.withLoaded name includes } }

/-- The session and its world once a database includes a name, before the classes are picked up. -/
def withIncluded (s : Workspace) (target included : String) : Workspace :=
  { s with world := { s.world with
      store := s.world.store.adjust target (Database.including included) } }

theorem refresh_discarded :
    (do let _ ← refresh : SessionM Unit) s = (.error e, t) ↔ refresh s = (.error e, t) := by
  rw [bind_apply]
  rcases refresh s with ⟨e' | added, u⟩ <;> simp

/-- Making a database fails where the store refuses it, and where its classes cannot be picked up. -/
theorem createDatabase_error (hrun : createDatabase name includes s = (.error e, t)) :
    (¬ s.world.store.CanCreate name includes ∧ t = s)
      ∨ s.world.store.CanCreate name includes
        ∧ refresh (withCreated s name includes) = (.error e, t) := by
  rw [createDatabase] at hrun
  by_cases hcan : s.world.store.CanCreate name includes
  · have hstore : onStore (Store.createDatabase name includes) s = (.ok (),
        { s with world := { s.world with store := s.world.store.withLoaded name includes } }) := by
      rw [onStore_apply, Store.createDatabase_of_canCreate hcan]
    rw [bind_of_ok hstore, bind_of_ok (modify_apply _ _), refresh_discarded] at hrun
    exact .inr ⟨hcan, hrun⟩
  · obtain ⟨e', hrefused⟩ := Store.createDatabase_of_not_canCreate hcan
    have hstore : onStore (Store.createDatabase name includes) s = (.error e', s) := by
      rw [onStore_apply, hrefused]
    rw [bind_of_error hstore] at hrun
    exact .inl ⟨hcan, (Prod.mk.inj hrun).2.symm⟩

theorem database_apply (place : Option String) (s : Workspace) :
    database place s = match place.or s.session.active with
      | some target => (.ok target, s)
      | none => (.error (.adhoc "no active database"), s) := by
  rw [database, bind_of_ok (get_apply s)]
  cases place.or s.session.active <;> rfl

theorem addInclude_error (htarget : place.or s.session.active = some target)
    (hrun : addInclude included place s = (.error e, t)) :
    (¬ s.world.store.CanInclude target included ∧ t = s)
      ∨ s.world.store.CanInclude target included
        ∧ refresh (withIncluded s target included) = (.error e, t) := by
  have hplace : database place s = (.ok target, s) := by rw [database_apply, htarget]
  rw [addInclude, bind_of_ok hplace] at hrun
  by_cases hcan : s.world.store.CanInclude target included
  · have hstore : onStore (Store.addInclude target included) s
        = (.ok (), withIncluded s target included) := by
      rw [onStore_apply, Store.addInclude_of_canInclude hcan]
      rfl
    rw [bind_of_ok hstore, refresh_discarded] at hrun
    exact .inr ⟨hcan, hrun⟩
  · obtain ⟨e', hrefused⟩ := Store.addInclude_of_not_canInclude hcan
    have hstore : onStore (Store.addInclude target included) s = (.error e', s) := by
      rw [onStore_apply, hrefused]
    rw [bind_of_error hstore] at hrun
    exact .inl ⟨hcan, (Prod.mk.inj hrun).2.symm⟩

/-- A database call that fails leaves the session and the includes as they were exactly where the
store refused it, or where the name was included already.  Where the classes could not be picked up the
new database stays loaded and active, and the new include stays. -/
theorem management_unchanged_iff (s : Workspace) :
    (∀ name includes e t, createDatabase name includes s = (.error e, t) →
      (t.session.active = s.session.active ∧ t.world.store.loaded = s.world.store.loaded
          ↔ ¬ s.world.store.CanCreate name includes)
        ∧ (s.world.store.CanCreate name includes →
          t.session.active = some name ∧ t.world.store.loaded = s.world.store.loaded ++ [name]))
      ∧ ∀ included place target e t, place.or s.session.active = some target →
        addInclude included place s = (.error e, t) →
        (t.world.store.includesOf target = s.world.store.includesOf target
            ↔ (s.world.store.CanInclude target included → s.world.store.Includes target included))
          ∧ (s.world.store.CanInclude target included →
            ∀ d, s.world.store.databases.get? target = some d → included ∉ d.includes →
              t.world.store.includesOf target = .ok (d.includes ++ [included])) := by
  constructor
  · intro name includes e t hrun
    rcases createDatabase_error hrun with ⟨hcannot, rfl⟩ | ⟨hcan, hrefresh⟩
    · exact ⟨⟨fun _ => hcannot, fun _ => ⟨rfl, rfl⟩⟩, fun hcan => absurd hcan hcannot⟩
    · obtain ⟨hstore, hactive⟩ := refresh_untouched (withCreated s name includes)
      rw [hrefresh] at hstore hactive
      have hloaded : t.world.store.loaded = s.world.store.loaded ++ [name] :=
        congrArg Store.loaded hstore
      refine ⟨⟨?_, fun hcannot => absurd hcan hcannot⟩, fun _ => ⟨hactive, hloaded⟩⟩
      rintro ⟨-, hsame⟩
      rw [hloaded] at hsame
      simp at hsame
  · intro included place target e t htarget hrun
    rcases addInclude_error htarget hrun with ⟨hcannot, rfl⟩ | ⟨hcan, hrefresh⟩
    · exact ⟨⟨fun _ hcan => absurd hcan hcannot, fun _ => rfl⟩, fun hcan => absurd hcan hcannot⟩
    · obtain ⟨hstore, -⟩ := refresh_untouched (withIncluded s target included)
      rw [hrefresh] at hstore
      obtain ⟨d, hd⟩ := Option.isSome_iff_exists.mp
        ((OrderedMap.get?_isSome ..).trans hcan.known)
      have hbefore : s.world.store.includesOf target = .ok d.includes := by
        rw [Store.includesOf, Store.database_eq_ok.mpr hd]
        rfl
      have hafter : t.world.store.includesOf target
          = .ok (if d.includes.contains included then d.includes else d.includes ++ [included]) :=
        (congrArg (fun store => store.includesOf target) hstore).trans
          (Store.includesOf_adjust_including included hd)
      rw [hafter, hbefore, Except.ok.injEq]
      refine ⟨⟨fun hsame _ => ⟨d, hd, ?_⟩, fun hincluded => ?_⟩, fun _ d' hd' hnew => ?_⟩
      · refine Decidable.byContradiction fun hnew => ?_
        rw [if_neg (by simpa using hnew)] at hsame
        simp at hsame
      · obtain ⟨d', hd', hmem⟩ := hincluded hcan
        obtain rfl : d = d' := Option.some.inj (hd.symm.trans hd')
        rw [if_pos (by simpa using hmem)]
      · obtain rfl : d = d' := Option.some.inj (hd.symm.trans hd')
        rw [if_neg (by simpa using hnew)]

/-- People are visible, and there is a schema with a class that cannot be loaded. -/
def misdeclared : List Operation :=
  System.settle ++ [.addSchema "things" { classes := [{
      name := "Thing", attributes := [{ name := "size", type := "none" }] }] }]

/-- Making a database that shows the class fails, and so does including it; both stay.  A database that
is there already is refused, and nothing happens. -/
theorem management_unchanged_iff_misdeclared :
    (∃ e t, createDatabase "next" ["things"] (System.visiting misdeclared) = (.error e, t)
        ∧ t.session.active = some "next" ∧ t.world.store.loaded = ["near", "next"])
      ∧ (∃ e t, addInclude "things" none (System.visiting misdeclared) = (.error e, t)
        ∧ t.world.store.includesOf "near" = .ok ["people", "things"])
      ∧ ∃ e t, createDatabase "near" [] (System.visiting misdeclared) = (.error e, t)
        ∧ t.session.active = some "near" ∧ t.world.store.loaded = ["near"] := by
  obtain ⟨hcreate, hinclude⟩ := management_unchanged_iff (System.visiting misdeclared)
  have hloaded : (System.visiting misdeclared).world.store.loaded = ["near"] := by decide +kernel
  refine ⟨?_, ?_, ?_⟩
  · obtain ⟨e, hrun⟩ := run_of_not_isOk (m := createDatabase "next" ["things"])
      (s := System.visiting misdeclared) (by decide +kernel)
    obtain ⟨hactive, hstays⟩ := (hcreate _ _ e _ hrun).2 ⟨by decide +kernel, by
      intro i hi
      obtain rfl := List.mem_singleton.mp hi
      rfl⟩
    exact ⟨e, _, hrun, hactive, hstays.trans (by rw [hloaded]; rfl)⟩
  · obtain ⟨e, hrun⟩ := run_of_not_isOk (m := addInclude "things" none)
      (s := System.visiting misdeclared) (by decide +kernel)
    obtain ⟨-, hstays⟩ := hinclude _ none "near" e _ rfl hrun
    exact ⟨e, _, hrun, hstays ⟨by decide +kernel, rfl⟩ { includes := ["people"] } rfl (by decide)⟩
  · obtain ⟨e, hrun⟩ := run_of_not_isOk (m := createDatabase "near" [])
      (s := System.visiting misdeclared) (by decide +kernel)
    obtain ⟨hactive, hsame⟩ := (hcreate _ _ e _ hrun).1.mpr fun hcan =>
      absurd hcan.new (by decide +kernel)
    exact ⟨e, _, hrun, hactive, hsame.trans hloaded⟩

/-- A failing call can change the active database, the loaded ones, and what a database includes. -/
theorem not_management_unchanged :
    (¬ ∀ (s : Workspace) name includes e t, createDatabase name includes s = (.error e, t) →
        t.session.active = s.session.active ∧ t.world.store.loaded = s.world.store.loaded)
      ∧ ¬ ∀ (s : Workspace) included place target e t, place.or s.session.active = some target →
        addInclude included place s = (.error e, t) →
        t.world.store.includesOf target = s.world.store.includesOf target := by
  constructor
  · intro hclaim
    obtain ⟨e, hrun⟩ := run_of_not_isOk (m := createDatabase "next" ["things"])
      (s := System.visiting misdeclared) (by decide +kernel)
    obtain ⟨hactive, -⟩ := hclaim _ _ _ e _ hrun
    exact absurd hactive (by decide +kernel)
  · intro hclaim
    obtain ⟨e, hrun⟩ := run_of_not_isOk (m := addInclude "things" none)
      (s := System.visiting misdeclared) (by decide +kernel)
    have hsame := congrArg Except.toOption (hclaim _ _ none "near" e _ rfl hrun)
    exact absurd hsame (by decide +kernel)

end Session

end RecordGraph
