import RecordGraph.Proofs.Store.Integrity

/-!
Read-only databases.  Every operation asks whether the database that it writes to may be written to, and
committing passes over those that may not.  Renaming a record also writes to every database that refers
to it, without asking: this is the one way in which what a read-only database holds can change.
-/

namespace RecordGraph

open RecordGraph.Computation

namespace Value

variable {source target : RecordRef}

theorem retarget_eq_self (v : Value) (h : source ∈ v.targets → target = source) :
    v.retarget source target = v := by
  induction v using Value.rec
    (motive_2 := fun items => (source ∈ targets.go items → target = source) →
      retarget.go source target items = items) with
  | record r =>
    rw [retarget]
    split
    · rename_i heq
      rw [heq, h (by rw [targets, heq, List.mem_singleton])]
    · rfl
  | list items ih =>
    rw [targets] at h
    rw [retarget, ih h]
  | nil => rw [retarget.go]
  | cons v vs ihv ihvs =>
    rename_i hitems
    rw [targets.go, List.mem_append] at hitems
    rw [retarget.go, ihv fun hmem => hitems (Or.inl hmem), ihvs fun hmem => hitems (Or.inr hmem)]
  | _ => rw [retarget] <;> simp

/-- Retargeting changes a value exactly where it points to the record. -/
theorem retarget_eq_self_iff {v : Value} :
    v.retarget source target = v ↔ (source ∈ v.targets → target = source) := by
  refine ⟨fun heq hmem => ?_, v.retarget_eq_self⟩
  have hfix : (v.targets.map fun t => if t = source then target else t) = v.targets.map id := by
    rw [← targets_retarget, heq, List.map_id]
  have hsource := List.map_inj_left.mp hfix source hmem
  rwa [if_pos rfl] at hsource

end Value

namespace Database

variable {d : Database} {source target : RecordRef}

/-- Retargeting changes the records of a database exactly where one of them refers to the record. -/
theorem records_retarget_eq_iff : (d.retarget source target).records = d.records
    ↔ ((∃ r, d.Refers r source) → target = source) := by
  rw [retarget, OrderedMap.mapValues_eq_self_iff]
  simp only [OrderedMap.mapValues_eq_self_iff, Value.retarget_eq_self_iff]
  constructor
  · rintro hsame ⟨r, fields, name, v, hfields, hv, hmem⟩
    exact hsame _ (OrderedMap.get?_eq_some_iff.mp hfields) _ (OrderedMap.get?_eq_some_iff.mp hv) hmem
  · intro hrefers e he f hf hmem
    exact hrefers ⟨e.1, e.2, f.1, f.2, OrderedMap.get?_eq_some_iff.mpr he,
      OrderedMap.get?_eq_some_iff.mpr hf, hmem⟩

end Database

/-- What an operation on another database makes of a database: its references follow a record that gets
another id. -/
def Operation.redirect : Operation → Database → Database
  | .renameRecord r newId, d => d.retarget r ⟨r.className, newId⟩
  | _, d => d

@[simp] theorem Operation.comments_redirect (op : Operation) (d : Database) :
    (op.redirect d).comments = d.comments := by
  cases op <;> rfl

/-- A database refers to a record to which the operation succeeds in giving another id. -/
def Operation.Redirects (op : Operation) (s : Store) (d : Database) : Prop :=
  ∃ r newId, op = .renameRecord r newId ∧ newId ≠ r.id ∧ (op.run s).1 = .ok () ∧ ∃ x, d.Refers x r

namespace Store

variable {s t : Store} {op : Operation} {name place : String} {d : Database}

/-- A database of a store holds the records and has the comments of a given one. -/
def Retains (s : Store) (name : String) (d : Database) : Prop :=
  ∃ d', s.databases.get? name = some d' ∧ d'.records = d.records ∧ d'.comments = d.comments

theorem retains_of_get? (hd : s.databases.get? name = some d) : s.Retains name d := ⟨d, hd, rfl, rfl⟩

/-- Changing a database in anything but its records and comments, or another database. -/
theorem retains_adjust {f : Database → Database} (hd : s.databases.get? name = some d)
    (hf : name = place → (f d).records = d.records ∧ (f d).comments = d.comments) :
    (s.adjust place f).Retains name d := by
  by_cases hname : name = place
  · subst hname
    obtain ⟨hrecords, hcomments⟩ := hf rfl
    exact ⟨f d, by rw [get?_adjust, if_pos rfl, hd]; rfl, hrecords, hcomments⟩
  · exact ⟨d, by rw [get?_adjust, if_neg hname, hd], rfl, rfl⟩

theorem ne_of_checkWritable (hd : s.databases.get? name = some d) (hlocked : d.readOnly = true)
    (hwritable : s.checkWritable place = .ok ()) : name ≠ place := by
  rintro rfl
  obtain ⟨d', hd', hopen⟩ := checkWritable_eq_ok.mp hwritable
  rw [hd] at hd'
  cases hd'
  rw [hlocked] at hopen
  cases hopen

/-- Changing a database that may be written to leaves those alone that may not. -/
theorem retains_of_writable {f : Database → Database} (hd : s.databases.get? name = some d)
    (hlocked : d.readOnly = true) (hwritable : s.checkWritable place = .ok ()) :
    (s.adjust place f).Retains name d :=
  retains_adjust hd fun heq => absurd heq (ne_of_checkWritable hd hlocked hwritable)

theorem get?_foldl_commented (hd : s.databases.get? name = some d) (hlocked : d.readOnly = true)
    (names : List String) (comment : String) :
    (names.foldl (fun t name => t.adjust name (Database.commented comment)) s).databases.get? name
      = some d := by
  induction names generalizing s with
  | nil => exact hd
  | cons other names ih =>
    refine ih ?_
    rw [get?_adjust]
    split
    · rename_i heq
      rw [← heq, hd, Option.map_some, Database.commented, if_pos hlocked]
    · exact hd

/-- An operation that succeeds does nothing to a read-only database but what it makes of references. -/
theorem Transition.redirects (ht : Transition s op t) (hd : s.databases.get? name = some d)
    (hlocked : d.readOnly = true) : t.Retains name (op.redirect d) := by
  cases ht with
  | addSchema => exact retains_of_get? hd
  | addSchemaText _ => exact retains_of_get? hd
  | addDatabase hnew _ => exact retains_of_get? (get?_withDatabase hnew hd)
  | createDatabase hnew _ => exact retains_of_get? (get?_withDatabase hnew hd)
  | load _ =>
    split
    · exact retains_of_get? hd
    · exact retains_of_get? hd
  | setReadOnly _ => exact retains_adjust hd fun _ => ⟨rfl, rfl⟩
  | addInclude _ _ =>
    refine retains_adjust hd fun _ => ?_
    rw [Database.including]
    split <;> exact ⟨rfl, rfl⟩
  | removeInclude _ _ => exact retains_adjust hd fun _ => ⟨rfl, rfl⟩
  | commit _ => exact retains_of_get? (get?_foldl_commented hd hlocked _ _)
  | createRecord _ hwritable _ => exact retains_of_writable hd hlocked hwritable
  | destroyRecord _ hwritable _ => exact retains_of_writable hd hlocked hwritable
  | renameRecord _ hwritable _ =>
    refine retains_of_get? ?_
    rw [get?_withRenamed, get?_adjust, if_neg (ne_of_checkWritable hd hlocked hwritable), hd]
    rfl
  | write hplace =>
    obtain ⟨-, hwritable, -, -⟩ := writePlace_eq_ok.mp hplace
    exact retains_of_writable hd hlocked hwritable

/-- Where an operation fails, or gives no record another id that the database refers to, what it makes
of references is nothing. -/
theorem records_redirect_eq_iff (hrun : (op.run s).1 = .ok ()) :
    (op.redirect d).records = d.records ↔ ¬ op.Redirects s d := by
  cases op with
  | renameRecord r newId =>
    rw [Operation.redirect, Database.records_retarget_eq_iff]
    constructor
    · rintro hsame ⟨_, _, heq, hne, -, hrefers⟩
      cases heq
      exact hne (congrArg RecordRef.id (hsame hrefers))
    · intro hnot hrefers
      refine Decidable.byContradiction fun hne => hnot ⟨r, newId, rfl, fun heq => hne ?_, hrun, hrefers⟩
      rw [heq]
  | _ =>
    refine iff_of_true rfl ?_
    rintro ⟨_, _, heq, -⟩
    cases heq

/-- Whatever the operation, and whether it succeeds or fails, a read-only database keeps its comments.  It
keeps its records with all their fields exactly if the operation gives no record another id that the
database refers to; if it does, these references follow the record, and nothing else changes. -/
theorem Reachable.readOnly_unchanged_iff (h : s.Reachable) (hd : s.databases.get? name = some d)
    (hlocked : d.readOnly = true) (op : Operation) :
    ∃ d', (op.run s).2.databases.get? name = some d' ∧ d'.comments = d.comments
      ∧ (d'.records = d.records ↔ ¬ op.Redirects s d)
      ∧ (op.Redirects s d → d'.records = (op.redirect d).records) := by
  rcases hrun : op.run s with ⟨e | u, t⟩
  · obtain rfl := h.loadsDatabases.eq_of_error hrun
    have hnot : ¬ op.Redirects t d := by
      rintro ⟨_, _, -, -, hok, -⟩
      rw [hrun] at hok
      cases hok
    exact ⟨d, hd, rfl, iff_of_true rfl hnot, fun hredirects => absurd hredirects hnot⟩
  · obtain ⟨d', hd', hrecords, hcomments⟩ := (transition_of_run hrun).redirects hd hlocked
    refine ⟨d', hd', by rw [hcomments, op.comments_redirect], ?_, fun _ => hrecords⟩
    rw [hrecords]
    exact records_redirect_eq_iff (congrArg Prod.fst hrun)

/-- A read-only database with a record that refers to one of another database. -/
def lockedReferrer : Store :=
  after [
    .addSchema "s" { classes := [{ name := "A", relations := [{ name := "peer", target := "A" }] }] },
    .addDatabase "far" [],
    .createDatabase "near" ["s", "far"],
    .createRecord "far" "A" "b",
    .createRecord "near" "A" "a",
    .write ⟨"A", "a"⟩ "peer" ⟨.object, false⟩ (.record ⟨"A", "b"⟩),
    .setReadOnly "near" true]

theorem redirects_lockedReferrer :
    ∃ d, lockedReferrer.databases.get? "near" = some d ∧ d.readOnly = true
      ∧ (Operation.renameRecord ⟨"A", "b"⟩ "c").Redirects lockedReferrer d
      ∧ ¬ (Operation.renameRecord ⟨"A", "a"⟩ "c").Redirects lockedReferrer d := by
  refine ⟨_, rfl, rfl, ⟨_, _, rfl, by decide, rfl, ⟨"A", "a"⟩, ?_⟩, ?_⟩
  · exact ⟨_, "peer", .record ⟨"A", "b"⟩, rfl, rfl, List.mem_singleton_self _⟩
  · rintro ⟨_, _, heq, -, hok, -⟩
    cases hok

/-- The record of the read-only database cannot get another id, but that database changes when the
record gets one that it refers to. -/
theorem readOnly_unchanged_iff_lockedReferrer :
    ∃ d, lockedReferrer.databases.get? "near" = some d ∧ d.readOnly = true
      ∧ (∃ d', ((Operation.renameRecord ⟨"A", "a"⟩ "c").run lockedReferrer).2.databases.get? "near"
          = some d' ∧ d'.records = d.records)
      ∧ ∃ d', ((Operation.renameRecord ⟨"A", "b"⟩ "c").run lockedReferrer).2.databases.get? "near"
          = some d' ∧ d'.records ≠ d.records ∧ d'.records = (d.retarget ⟨"A", "b"⟩ ⟨"A", "c"⟩).records := by
  have hreachable : lockedReferrer.Reachable := reachableBy_after fun _ _ => trivial
  obtain ⟨d, hd, hlocked, hredirects, hnot⟩ := redirects_lockedReferrer
  obtain ⟨d₁, hd₁, -, hsame, -⟩ :=
    hreachable.readOnly_unchanged_iff hd hlocked (.renameRecord ⟨"A", "a"⟩ "c")
  obtain ⟨d₂, hd₂, -, hchanged, hfollow⟩ :=
    hreachable.readOnly_unchanged_iff hd hlocked (.renameRecord ⟨"A", "b"⟩ "c")
  exact ⟨d, hd, hlocked, ⟨d₁, hd₁, hsame.mpr hnot⟩, d₂, hd₂,
    fun heq => hchanged.mp heq hredirects, hfollow hredirects⟩

/-- Renaming a record can change a read-only database. -/
theorem not_retains_of_redirects :
    ¬ ∀ (s : Store) (name : String) (d : Database) (r : RecordRef) (newId : String), s.Reachable →
      s.databases.get? name = some d → d.readOnly = true →
      ((Operation.renameRecord r newId).run s).2.Retains name d := by
  intro hclaim
  obtain ⟨d, hd, hlocked, hredirects, -⟩ := redirects_lockedReferrer
  obtain ⟨d₁, hd₁, hkept, -⟩ := hclaim _ _ d ⟨"A", "b"⟩ "c" (reachableBy_after fun _ _ => trivial)
    hd hlocked
  have htransition : Transition lockedReferrer (.renameRecord ⟨"A", "b"⟩ "c")
      ((Operation.renameRecord ⟨"A", "b"⟩ "c").run lockedReferrer).2 :=
    transition_of_run (u := ()) (Prod.ext rfl rfl)
  obtain ⟨d₂, hd₂, hfollow, -⟩ := htransition.redirects hd hlocked
  cases hd₁.symm.trans hd₂
  rw [hfollow] at hkept
  exact (records_redirect_eq_iff rfl).mp hkept hredirects

end Store

end RecordGraph
