import RecordGraph.Proofs.Store.Operation

/-!
Failing operations.  An operation checks before it changes, so that one that fails leaves the store as
it was.  Committing changes one database after the other without a check before: it is safe because
every loaded name is a database, which all operations keep.
-/

namespace RecordGraph

open RecordGraph.Computation

namespace Store

variable {s t : Store} {op : Operation}

/-! ### Checks before changes -/

theorem reads_ask {α : Type} (f : Store → Except Error α) : Reads (Store.ask f) := by
  intro s
  rw [ask_apply]

theorem atomic_changeDatabase (name : String) (f : Database → Database) :
    Atomic (changeDatabase name f) :=
  (reads_ask _).bind_atomic fun _ => (succeeds_modify _).atomic

theorem atomic_addDatabase (name : String) (includes : List String) :
    Atomic (Store.addDatabase name includes) := by
  refine reads_get.bind_atomic fun s => ?_
  split
  · exact (reads_throw _).bind_atomic fun _ => (Reads.forM (fun _ => reads_ask _) _).bind_atomic
      fun _ => (succeeds_modify _).atomic
  · exact (Reads.forM (fun _ => reads_ask _) _).bind_atomic fun _ => (succeeds_modify _).atomic

theorem atomic_removeInclude (name included : String) :
    Atomic (Store.removeInclude name included) := by
  refine (reads_ask _).bind_atomic fun d => ?_
  split
  · exact atomic_changeDatabase _ _
  · exact (reads_throw _).atomic

theorem atomic_createRecord (place className id : String) :
    Atomic (Store.createRecord place className id) := by
  refine (reads_ask _).bind_atomic fun _ => (reads_ask _).bind_atomic fun _ =>
    reads_get.bind_atomic fun s => ?_
  split
  · exact (reads_throw _).atomic
  · exact (atomic_changeDatabase _ _).bind_succeeds fun _ => succeeds_pure _

theorem atomic_destroyRecord (r : RecordRef) : Atomic (Store.destroyRecord r) := by
  refine (reads_ask _).bind_atomic fun place => (reads_ask _).bind_atomic fun _ =>
    reads_get.bind_atomic fun s => ?_
  split
  · exact (reads_throw _).atomic
  · exact atomic_changeDatabase _ _

theorem atomic_renameRecord (r : RecordRef) (newId : String) :
    Atomic (Store.renameRecord r newId) := by
  refine (reads_ask _).bind_atomic fun place => (reads_ask _).bind_atomic fun _ =>
    reads_get.bind_atomic fun s => ?_
  split
  · exact (reads_throw _).atomic
  · exact (atomic_changeDatabase _ _).bind_succeeds fun _ =>
      (succeeds_modify _).bind fun _ => succeeds_pure _

theorem atomic_write (r : RecordRef) (name : String) (accessor : Accessor) (v : Value) :
    Atomic (Store.write r name accessor v) := by
  intro s e t hrun
  rw [write_apply] at hrun
  split at hrun <;> simp_all

/-- Every operation but committing checks before it changes. -/
theorem atomic_run (hop : ∀ comment, op ≠ .commit comment) : Atomic op.run := by
  cases op with
  | addSchema name document => exact (succeeds_modify _).atomic
  | addSchemaText name text =>
    exact (reads_ofExcept _).bind_atomic fun _ => (succeeds_modify _).atomic
  | addDatabase name includes => exact atomic_addDatabase name includes
  | createDatabase name includes =>
    exact (atomic_addDatabase name includes).bind_succeeds fun _ => succeeds_modify _
  | load name => exact (reads_ask _).bind_atomic fun _ => (succeeds_modify _).atomic
  | setReadOnly name readOnly => exact atomic_changeDatabase _ _
  | addInclude name included => exact (reads_ask _).bind_atomic fun _ => atomic_changeDatabase _ _
  | removeInclude name included => exact atomic_removeInclude name included
  | commit comment => exact absurd rfl (hop comment)
  | createRecord place className id =>
    exact (atomic_createRecord place className id).bind_succeeds fun _ => succeeds_pure _
  | destroyRecord r => exact atomic_destroyRecord r
  | renameRecord r newId => exact (atomic_renameRecord r newId).bind_succeeds fun _ => succeeds_pure _
  | write r name accessor v => exact atomic_write r name accessor v

/-! ### Loaded databases -/

/-- Every loaded name is a database, and none was loaded twice. -/
structure LoadsDatabases (s : Store) : Prop where
  known : ∀ name ∈ s.loaded, s.databases.contains name = true
  once : s.loaded.Nodup

/-- Whatever keeps the databases may change what they are. -/
theorem LoadsDatabases.of_contains (h : s.LoadsDatabases) (hloaded : t.loaded = s.loaded)
    (hkept : ∀ name, s.databases.contains name = true → t.databases.contains name = true) :
    t.LoadsDatabases where
  known name hname := hkept name (h.known name (hloaded ▸ hname))
  once := hloaded ▸ h.once

/-- Loading a database that was not loaded. -/
theorem LoadsDatabases.append {name : String} (h : s.LoadsDatabases)
    (hname : s.databases.contains name = true) (hnew : name ∉ s.loaded) :
    LoadsDatabases { s with loaded := s.loaded ++ [name] } where
  known other hother := by
    rcases List.mem_append.mp hother with hother | hother
    · exact h.known other hother
    · rwa [List.mem_singleton.mp hother]
  once := by
    rw [List.nodup_append]
    refine ⟨h.once, by simp, fun a ha b hb => ?_⟩
    rintro rfl
    exact hnew (List.mem_singleton.mp hb ▸ ha)

theorem contains_withDatabase {name other : String} {includes : List String}
    (h : s.databases.contains other = true) :
    (s.withDatabase name includes).databases.contains other = true := by
  unfold withDatabase
  rw [OrderedMap.contains_insert, h, Bool.or_true]

theorem contains_withRenamed {place name : String} {r renamed : RecordRef}
    (h : s.databases.contains name = true) :
    (s.withRenamed place r renamed).databases.contains name = true := by
  unfold withRenamed
  rwa [OrderedMap.contains_iff_mem_keys, OrderedMap.keys_mapValues, OrderedMap.keys_modify,
    ← OrderedMap.contains_iff_mem_keys]

/-- Changing one database after the other, where none comes twice. -/
theorem foldl_adjust {names : List String} (hnodup : names.Nodup) (s : Store)
    (f : Database → Database) :
    names.foldl (fun t name => t.adjust name f) s
      = { s with
          databases := s.databases.mapValues fun name d => if name ∈ names then f d else d } := by
  induction names generalizing s with
  | nil => simp [OrderedMap.mapValues]
  | cons name names ih =>
    obtain ⟨hnew, hrest⟩ := List.nodup_cons.mp hnodup
    rw [List.foldl_cons, ih hrest]
    unfold adjust OrderedMap.modify
    dsimp only
    rw [OrderedMap.mapValues_mapValues]
    congr 1
    refine OrderedMap.mapValues_congr fun e _ => ?_
    by_cases heq : e.1 = name
    · simp [heq, hnew]
    · simp [heq]

/-- The store after a comment was added to all loaded databases that may be written to. -/
def commented (s : Store) (comment : String) : Store :=
  { s with databases := s.databases.mapValues fun name d =>
      if name ∈ s.loaded then d.commented comment else d }

/-- Committing adds the comment once to every loaded database that may be written to. -/
theorem LoadsDatabases.commit_apply (h : s.LoadsDatabases) (comment : String) :
    Store.commit comment s = (.ok (), s.commented comment) := by
  rw [Store.commit, bind_of_ok (get_apply s)]
  refine (forM_changeDatabase_eq_ok (f := Database.commented comment)).mpr ⟨h.known, ?_⟩
  rw [foldl_adjust h.once]
  rfl

theorem LoadsDatabases.transition (h : s.LoadsDatabases) (ht : Transition s op t) :
    t.LoadsDatabases := by
  cases ht with
  | addSchema => exact h.of_contains rfl fun _ hname => hname
  | addSchemaText _ => exact h.of_contains rfl fun _ hname => hname
  | addDatabase _ _ => exact h.of_contains rfl fun _ hname => contains_withDatabase hname
  | @createDatabase name includes hnew _ =>
    have hadded : (s.withDatabase name includes).LoadsDatabases :=
      h.of_contains rfl fun _ hname => contains_withDatabase hname
    refine hadded.append ?_ fun hloaded => ?_
    · simp [withDatabase, OrderedMap.contains_insert]
    · simp [h.known name hloaded] at hnew
  | @load name hknown =>
    split
    · exact h
    · rename_i hnew
      exact h.append hknown (by simpa using hnew)
  | setReadOnly _ => exact h.of_contains rfl fun _ hname => contains_adjust.trans hname
  | addInclude _ _ => exact h.of_contains rfl fun _ hname => contains_adjust.trans hname
  | removeInclude _ _ => exact h.of_contains rfl fun _ hname => contains_adjust.trans hname
  | @commit comment _ =>
    rw [foldl_adjust h.once]
    refine h.of_contains rfl fun name hname => ?_
    rwa [OrderedMap.contains_iff_mem_keys, OrderedMap.keys_mapValues,
      ← OrderedMap.contains_iff_mem_keys]
  | createRecord _ _ _ => exact h.of_contains rfl fun _ hname => contains_adjust.trans hname
  | destroyRecord _ _ _ => exact h.of_contains rfl fun _ hname => contains_adjust.trans hname
  | renameRecord _ _ _ => exact h.of_contains rfl fun _ hname => contains_withRenamed hname
  | write _ => exact h.of_contains rfl fun _ hname => contains_adjust.trans hname

/-- Where loaded names are databases every operation is atomic. -/
theorem LoadsDatabases.eq_of_error {e : Error} (h : s.LoadsDatabases)
    (hrun : op.run s = (.error e, t)) : t = s := by
  by_cases hop : ∃ comment, op = .commit comment
  · obtain ⟨comment, rfl⟩ := hop
    rw [Operation.run, h.commit_apply] at hrun
    simp at hrun
  · exact atomic_run (fun comment heq => hop ⟨comment, heq⟩) s e t hrun

theorem Reachable.loadsDatabases (h : s.Reachable) : s.LoadsDatabases := by
  induction h with
  | empty => exact ⟨by simp, List.nodup_nil⟩
  | @step s op _ _ ih =>
    rcases hrun : op.run s with ⟨e | u, t⟩
    · exact ih.eq_of_error hrun ▸ ih
    · exact ih.transition (transition_of_run hrun)

/-- An operation that fails leaves a reachable store as it was, and committing never fails: it adds
the comment once to every loaded database that may be written to. -/
theorem Reachable.unchanged_of_error (h : s.Reachable) :
    (∀ (op : Operation) (e : Error) (t : Store), op.run s = (.error e, t) → t = s)
      ∧ ∀ comment : String, Store.commit comment s = (.ok (), s.commented comment) :=
  ⟨fun _ _ _ hrun => h.loadsDatabases.eq_of_error hrun, h.loadsDatabases.commit_apply⟩

/-- Two loaded databases, one of them read-only. -/
def halfLocked : Store :=
  after [.createDatabase "open" [], .createDatabase "locked" [], .setReadOnly "locked" true]

/-- A record cannot be made in the read-only database, and a commit reaches only the other one. -/
theorem unchanged_of_error_halfLocked :
    (Operation.createRecord "locked" "A" "a").run halfLocked
        = (.error (.constraintViolation "database `locked` is read-only"), halfLocked)
      ∧ Store.commit "done" halfLocked = (.ok (), halfLocked.commented "done")
      ∧ (halfLocked.commented "done").comments "open" = .ok ["done"]
      ∧ (halfLocked.commented "done").comments "locked" = .ok [] := by
  have hreachable : halfLocked.Reachable := reachableBy_after fun _ _ => trivial
  obtain ⟨hunchanged, hcommit⟩ := hreachable.unchanged_of_error
  have hfails : ((Operation.createRecord "locked" "A" "a").run halfLocked).1
      = .error (.constraintViolation "database `locked` is read-only") := rfl
  exact ⟨Prod.ext hfails (hunchanged _ _ _ (Prod.ext hfails rfl)), hcommit "done", rfl, rfl⟩

end Store

end RecordGraph
