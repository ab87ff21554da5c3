import RecordGraph.Proofs.Store.Creation

/-!
Operations as data.  A run of operations starts from the empty store and goes on from whatever an
operation leaves, also when it fails.  A successful operation is one transition, which says what it
relied on and what it made of the store.
-/

namespace RecordGraph

open RecordGraph.Computation

/-- An operation that changes a store, with its arguments. -/
inductive Operation
  | addSchema (name : String) (document : SchemaDocument)
  | addSchemaText (name text : String)
  | addDatabase (name : String) (includes : List String)
  | createDatabase (name : String) (includes : List String)
  | load (name : String)
  | setReadOnly (name : String) (readOnly : Bool)
  | addInclude (name included : String)
  | removeInclude (name included : String)
  | commit (comment : String)
  | createRecord (place className id : String)
  | destroyRecord (r : RecordRef)
  | renameRecord (r : RecordRef) (newId : String)
  | write (r : RecordRef) (name : String) (accessor : Accessor) (v : Value)

/-- Runs an operation for what it does to the store. -/
def Operation.run : Operation → StoreM Unit
  | .addSchema name document => Store.addSchema name document
  | .addSchemaText name text => Store.addSchemaText name text
  | .addDatabase name includes => Store.addDatabase name includes
  | .createDatabase name includes => Store.createDatabase name includes
  | .load name => Store.load name
  | .setReadOnly name readOnly => Store.setReadOnly name readOnly
  | .addInclude name included => Store.addInclude name included
  | .removeInclude name included => Store.removeInclude name included
  | .commit comment => Store.commit comment
  | .createRecord place className id => do let _ ← Store.createRecord place className id
  | .destroyRecord r => Store.destroyRecord r
  | .renameRecord r newId => do let _ ← Store.renameRecord r newId
  | .write r name accessor v => Store.write r name accessor v

namespace Database

/-- The database with one more comment, if it may be written to. -/
def commented (comment : String) (d : Database) : Database :=
  if d.readOnly then d else { d with comments := d.comments ++ [comment] }

/-- The database that includes one more name. -/
def including (included : String) (d : Database) : Database :=
  if d.includes.contains included then d else { d with includes := d.includes ++ [included] }

end Database

namespace Store

variable {s t : Store} {op : Operation}

/-- The stores that runs of certain operations lead to, whether each operation succeeds or not. -/
inductive ReachableBy (allowed : Operation → Prop) : Store → Prop
  | empty : ReachableBy allowed {}
  | step {s : Store} (op : Operation) (hop : allowed op) (h : ReachableBy allowed s) :
      ReachableBy allowed (op.run s).2

/-- The stores that operations lead to. -/
abbrev Reachable (s : Store) : Prop := s.ReachableBy fun _ => True

theorem ReachableBy.reachable {allowed : Operation → Prop} (h : s.ReachableBy allowed) :
    s.Reachable := by
  induction h with
  | empty => exact .empty
  | step op _ _ ih => exact .step op trivial ih

/-- What a list of operations makes of the empty store. -/
def after (ops : List Operation) : Store := ops.foldl (fun s op => (op.run s).2) {}

theorem reachableBy_after {allowed : Operation → Prop} {ops : List Operation}
    (hops : ∀ op ∈ ops, allowed op) : (after ops).ReachableBy allowed := by
  suffices general : ∀ s : Store, s.ReachableBy allowed →
      (ops.foldl (fun s op => (op.run s).2) s).ReachableBy allowed from general {} .empty
  induction ops with
  | nil => exact fun s hs => hs
  | cons op ops ih =>
    intro s hs
    exact ih (fun op hop => hops op (List.mem_cons_of_mem _ hop)) _
      (.step op (hops op List.mem_cons_self) hs)

/-! ### Transitions -/

/-- The store with a database changed. -/
def adjust (s : Store) (name : String) (f : Database → Database) : Store :=
  { s with databases := s.databases.modify name f }

/-- The store with a new database. -/
def withDatabase (s : Store) (name : String) (includes : List String) : Store :=
  { s with databases := s.databases.insert name { includes } }

/-- What a successful operation relies on, and what it makes of the store. -/
inductive Transition (s : Store) : Operation → Store → Prop
  | addSchema {name : String} {document : SchemaDocument} :
      Transition s (.addSchema name document)
        { s with schemas := s.schemas.insert name document }
  | addSchemaText {name text : String} {document : SchemaDocument}
      (parsed : SchemaDocument.parse text = .ok document) :
      Transition s (.addSchemaText name text) { s with schemas := s.schemas.insert name document }
  | addDatabase {name : String} {includes : List String}
      (new : s.databases.contains name = false)
      (known : ∀ i ∈ includes, s.checkInclude i = .ok ()) :
      Transition s (.addDatabase name includes) (s.withDatabase name includes)
  | createDatabase {name : String} {includes : List String}
      (new : s.databases.contains name = false)
      (known : ∀ i ∈ includes, s.checkInclude i = .ok ()) :
      Transition s (.createDatabase name includes)
        { s.withDatabase name includes with loaded := s.loaded ++ [name] }
  | load {name : String} (known : s.databases.contains name = true) :
      Transition s (.load name)
        (if s.loaded.contains name then s else { s with loaded := s.loaded ++ [name] })
  | setReadOnly {name : String} {readOnly : Bool} (known : s.databases.contains name = true) :
      Transition s (.setReadOnly name readOnly) (s.adjust name fun d => { d with readOnly })
  | addInclude {name included : String} (known : s.databases.contains name = true)
      (includable : s.checkInclude included = .ok ()) :
      Transition s (.addInclude name included) (s.adjust name (Database.including included))
  | removeInclude {name included : String} {d : Database}
      (known : s.databases.get? name = some d) (includes : d.includes.contains included = true) :
      Transition s (.removeInclude name included)
        (s.adjust name fun d => { d with includes := d.includes.erase included })
  | commit {comment : String} (known : ∀ name ∈ s.loaded, s.databases.contains name = true) :
      Transition s (.commit comment)
        (s.loaded.foldl (fun t name => t.adjust name (Database.commented comment)) s)
  | createRecord {place className id : String} (declared : className ∈ s.classes)
      (writable : s.checkWritable place = .ok ()) (free : s.conflict className id = none) :
      Transition s (.createRecord place className id) (s.withRecord place ⟨className, id⟩)
  | destroyRecord {r : RecordRef} {place : String} (found : s.location r = some place)
      (writable : s.checkWritable place = .ok ())
      (unreferenced : ∀ d ∈ s.databasesIn s.visible, d.referrers r = []) :
      Transition s (.destroyRecord r) (s.adjust place fun d => { d with records := d.records.erase r })
  | renameRecord {r : RecordRef} {newId place : String} (found : s.location r = some place)
      (writable : s.checkWritable place = .ok ()) (free : s.conflict r.className newId = none) :
      Transition s (.renameRecord r newId) (s.withRenamed place r ⟨r.className, newId⟩)
  | write {r : RecordRef} {name place : String} {accessor : Accessor} {v : Value}
      (writable : s.writePlace r name accessor v = .ok place) :
      Transition s (.write r name accessor v) (s.put place r name v)

theorem database_eq_ok {name : String} {d : Database} :
    s.database name = .ok d ↔ s.databases.get? name = some d := by
  unfold database
  cases s.databases.get? name <;> simp

theorem get?_adjust {place name : String} {f : Database → Database} :
    (s.adjust place f).databases.get? name
      = if name = place then (s.databases.get? place).map f else s.databases.get? name :=
  OrderedMap.get?_modify ..

@[simp] theorem contains_adjust {place name : String} {f : Database → Database} :
    (s.adjust place f).databases.contains name = s.databases.contains name := by
  unfold adjust
  rw [Bool.eq_iff_iff, OrderedMap.contains_iff_mem_keys, OrderedMap.keys_modify,
    OrderedMap.contains_iff_mem_keys]

theorem contains_of_get? {name : String} {d : Database} (hd : s.databases.get? name = some d) :
    s.databases.contains name = true := by
  rw [← OrderedMap.get?_isSome, hd]
  rfl

/-- A new database is none of those that were there. -/
theorem get?_withDatabase {name other : String} {includes : List String} {d : Database}
    (hnew : s.databases.contains other = false) (hd : s.databases.get? name = some d) :
    (s.withDatabase other includes).databases.get? name = some d := by
  have hne : name ≠ other := by
    rintro rfl
    simp [contains_of_get? hd] at hnew
  rw [withDatabase, OrderedMap.get?_insert, if_neg hne, hd]

theorem changeDatabase_eq_ok {name : String} {f : Database → Database} {u : Unit} :
    changeDatabase name f s = (.ok u, t)
      ↔ s.databases.contains name = true ∧ t = s.adjust name f := by
  rw [← OrderedMap.get?_isSome]
  cases hd : s.databases.get? name with
  | none =>
    rw [changeDatabase, bind_apply, ask_apply, database, hd]
    simp
  | some d =>
    rw [changeDatabase_apply hd]
    simp [adjust, eq_comm]

/-- Asking for the check of one name after the other. -/
theorem forM_checkInclude_eq_ok {includes : List String} {u : PUnit}
    (h : includes.forM (fun i => Store.ask fun s => s.checkInclude i) s = (.ok u, t)) :
    t = s ∧ ∀ i ∈ includes, s.checkInclude i = .ok () := by
  refine forM_run (fun done t => t = s ∧ ∀ i ∈ done, s.checkInclude i = .ok ()) h
    ⟨rfl, by simp⟩ ?_
  rintro done i a b - ⟨rfl, hdone⟩ hstep
  obtain ⟨hcheck, rfl⟩ := ask_eq_ok hstep
  refine ⟨rfl, fun j hj => ?_⟩
  rcases List.mem_append.mp hj with hj | hj
  · exact hdone j hj
  · exact List.mem_singleton.mp hj ▸ hcheck

theorem addDatabase_eq_ok {name : String} {includes : List String} {u : Unit}
    (h : Store.addDatabase name includes s = (.ok u, t)) :
    s.databases.contains name = false ∧ (∀ i ∈ includes, s.checkInclude i = .ok ())
      ∧ t = s.withDatabase name includes := by
  rw [Store.addDatabase, bind_of_ok (get_apply s)] at h
  cases hnew : s.databases.contains name with
  | true => simp [hnew, bind_apply] at h
  | false =>
    simp only [hnew, Bool.false_eq_true, if_false] at h
    obtain ⟨_, s₁, hchecks, hmodify⟩ := bind_eq_ok.mp h
    obtain ⟨rfl, hknown⟩ := forM_checkInclude_eq_ok hchecks
    obtain ⟨-, rfl⟩ := Prod.mk.inj hmodify
    exact ⟨rfl, hknown, rfl⟩

/-- A loop that changes databases stops where it does not know one. -/
theorem forM_changeDatabase_eq_ok {names : List String} {f : Database → Database} {u : PUnit} :
    names.forM (fun name => changeDatabase name f) s = (.ok u, t)
      ↔ (∀ name ∈ names, s.databases.contains name = true)
        ∧ t = names.foldl (fun t name => t.adjust name f) s := by
  induction names generalizing s with
  | nil =>
    rw [List.forM, pure_apply, outcome_eq_iff]
    exact ⟨fun h => ⟨by simp, h.2.symm⟩, fun h => ⟨rfl, h.2.symm⟩⟩
  | cons name names ih =>
    have hstep : (name :: names).forM (fun name => changeDatabase name f) s = (.ok u, t)
        ↔ s.databases.contains name = true
          ∧ names.forM (fun name => changeDatabase name f) (s.adjust name f) = (.ok u, t) := by
      rw [List.forM, bind_eq_ok]
      simp only [changeDatabase_eq_ok]
      exact ⟨fun ⟨_, _, ⟨hknown, heq⟩, hrest⟩ => ⟨hknown, heq ▸ hrest⟩,
        fun ⟨hknown, hrest⟩ => ⟨(), _, ⟨hknown, rfl⟩, hrest⟩⟩
    rw [hstep, ih]
    simp [and_assoc]

/-- Every successful operation is a transition. -/
theorem transition_of_run {u : Unit} (h : op.run s = (.ok u, t)) : Transition s op t := by
  cases op with
  | addSchema name document =>
    obtain ⟨-, rfl⟩ := Prod.mk.inj h
    exact .addSchema
  | addSchemaText name text =>
    obtain ⟨document, s₁, hparse, hmodify⟩ := bind_eq_ok.mp h
    rw [ofExcept_apply] at hparse
    obtain ⟨hparsed, rfl⟩ := Prod.mk.inj hparse
    obtain ⟨-, rfl⟩ := Prod.mk.inj hmodify
    exact .addSchemaText hparsed
  | addDatabase name includes =>
    obtain ⟨hnew, hknown, rfl⟩ := addDatabase_eq_ok h
    exact .addDatabase hnew hknown
  | createDatabase name includes =>
    obtain ⟨_, s₁, hadd, hmodify⟩ := bind_eq_ok.mp h
    obtain ⟨hnew, hknown, rfl⟩ := addDatabase_eq_ok hadd
    obtain ⟨-, rfl⟩ := Prod.mk.inj hmodify
    exact .createDatabase hnew hknown
  | load name =>
    obtain ⟨d, s₁, hask, hmodify⟩ := bind_eq_ok.mp h
    obtain ⟨hd, rfl⟩ := ask_eq_ok hask
    obtain ⟨-, rfl⟩ := Prod.mk.inj hmodify
    exact .load (contains_of_get? (database_eq_ok.mp hd))
  | setReadOnly name readOnly =>
    obtain ⟨hknown, rfl⟩ := changeDatabase_eq_ok.mp h
    exact .setReadOnly hknown
  | addInclude name included =>
    obtain ⟨_, s₁, hask, hchange⟩ := bind_eq_ok.mp h
    obtain ⟨hincludable, rfl⟩ := ask_eq_ok hask
    obtain ⟨hknown, rfl⟩ := changeDatabase_eq_ok.mp hchange
    exact .addInclude hknown hincludable
  | removeInclude name included =>
    obtain ⟨d, s₁, hask, hrest⟩ := bind_eq_ok.mp h
    obtain ⟨hd, rfl⟩ := ask_eq_ok hask
    split at hrest
    · rename_i hincludes
      obtain ⟨-, rfl⟩ := changeDatabase_eq_ok.mp hrest
      exact .removeInclude (database_eq_ok.mp hd) hincludes
    · simp at hrest
  | commit comment =>
    rw [Operation.run, Store.commit, bind_of_ok (get_apply s)] at h
    obtain ⟨hknown, rfl⟩ := forM_changeDatabase_eq_ok.mp h
    exact .commit hknown
  | createRecord place className id =>
    obtain ⟨r, s₁, hcreate, hpure⟩ := bind_eq_ok.mp h
    obtain ⟨-, rfl⟩ := Prod.mk.inj hpure
    obtain ⟨-, rfl, hdeclared, hfree, hwritable⟩ := createRecord_run hcreate
    exact .createRecord hdeclared hwritable hfree
  | destroyRecord r =>
    obtain ⟨place, s₁, hask, hrest⟩ := bind_eq_ok.mp h
    obtain ⟨hplace, rfl⟩ := ask_eq_ok hask
    obtain ⟨_, s₁, hask, hrest⟩ := bind_eq_ok.mp hrest
    obtain ⟨hwritable, rfl⟩ := ask_eq_ok hask
    rw [bind_of_ok (get_apply _)] at hrest
    cases hfirst : ((s.databasesIn s.visible).flatMap fun d => d.referrers r).head? with
    | some referrer => simp [hfirst] at hrest
    | none =>
      simp only [hfirst] at hrest
      obtain ⟨-, rfl⟩ := changeDatabase_eq_ok.mp hrest
      have hnone := List.head?_eq_none_iff.mp hfirst
      exact .destroyRecord (locateVisible_eq_ok.mp hplace) hwritable
        (List.flatMap_eq_nil_iff.mp hnone)
  | renameRecord r newId =>
    obtain ⟨r', s₁, hrename, hpure⟩ := bind_eq_ok.mp h
    obtain ⟨-, rfl⟩ := Prod.mk.inj hpure
    obtain ⟨-, place, hplace, hwritable, hfree, rfl⟩ := renameRecord_run hrename
    exact .renameRecord hplace hwritable hfree
  | write r name accessor v =>
    obtain ⟨place, hplace, rfl⟩ := write_run h
    exact .write hplace

end Store

end RecordGraph
