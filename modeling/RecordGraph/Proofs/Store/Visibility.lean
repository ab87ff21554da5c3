import RecordGraph.Proofs.Ancestry
import RecordGraph.Proofs.OrderedMap
import RecordGraph.Store.Basic

/-!
Visible records.  What a store finds, lists or reaches through an object accessor is visible, and
every visible record is among those that the databases hold.  A relation of a record resolves to the
references that the store keeps for it, or does not resolve at all.
-/

namespace RecordGraph

namespace Store

variable {s : Store} {r t : RecordRef}

/-- Some visible database holds exactly the record. -/
def Visible (s : Store) (r : RecordRef) : Prop := (s.location r).isSome = true

instance (s : Store) (r : RecordRef) : Decidable (s.Visible r) :=
  inferInstanceAs (Decidable ((s.location r).isSome = true))

/-- The records of all databases. -/
def allRecords (s : Store) : List RecordRef := s.databases.values.flatMap fun d => d.records.keys

theorem length_allRecords (s : Store) : s.allRecords.length = s.recordCount := by
  unfold allRecords recordCount
  induction s.databases.values with
  | nil => rfl
  | cons d ds ih =>
    rw [List.flatMap_cons, List.length_append, ih]
    simp [OrderedMap.keys, OrderedMap.size]

theorem locate_eq_some {scope : List String} {name : String} (h : s.locate scope r = some name) :
    name ∈ scope ∧ ∃ d, s.databases.get? name = some d ∧ d.holds r = true := by
  have hfound := List.find?_some h
  refine ⟨List.mem_of_find?_eq_some h, ?_⟩
  cases hget : s.databases.get? name with
  | none => simp [hget] at hfound
  | some d => exact ⟨d, rfl, by simpa [hget] using hfound⟩

theorem locate_isSome_iff {scope : List String} :
    (s.locate scope r).isSome = true
      ↔ ∃ name ∈ scope, ∃ d, s.databases.get? name = some d ∧ d.holds r = true := by
  constructor
  · intro h
    obtain ⟨name, hname⟩ := Option.isSome_iff_exists.mp h
    exact ⟨name, locate_eq_some hname⟩
  · rintro ⟨name, hscope, d, hget, hholds⟩
    rw [locate, List.find?_isSome]
    exact ⟨name, hscope, by simpa [hget] using hholds⟩

theorem visible_iff :
    s.Visible r ↔ ∃ name ∈ s.visible, ∃ d, s.databases.get? name = some d ∧ d.holds r = true :=
  locate_isSome_iff

theorem Visible.mem_allRecords (h : s.Visible r) : r ∈ s.allRecords := by
  obtain ⟨name, _, d, hget, hholds⟩ := visible_iff.mp h
  exact List.mem_flatMap.mpr
    ⟨d, OrderedMap.mem_values_of_get? hget, OrderedMap.contains_iff_mem_keys.mp hholds⟩

/-! ### Looking records up -/

theorem lookup_eq_some {id : String} {accept : String → Bool} (h : s.lookup id accept = some r) :
    s.Visible r ∧ r.id = id ∧ accept r.className = true ∧ r.className ∈ s.classes := by
  have hvisible := List.find?_some h
  have hmem := List.mem_of_find?_eq_some h
  obtain ⟨c, hc, rfl⟩ := List.mem_map.mp hmem
  obtain ⟨hclass, haccept⟩ := List.mem_filter.mp hc
  exact ⟨hvisible, rfl, haccept, hclass⟩

theorem lookup_isSome_iff {id : String} {accept : String → Bool} :
    (s.lookup id accept).isSome = true
      ↔ ∃ c ∈ s.classes, accept c = true ∧ s.Visible ⟨c, id⟩ := by
  constructor
  · intro h
    obtain ⟨⟨c, i⟩, hfound⟩ := Option.isSome_iff_exists.mp h
    obtain ⟨hvisible, rfl, haccept, hclass⟩ := lookup_eq_some hfound
    exact ⟨c, hclass, haccept, hvisible⟩
  · rintro ⟨c, hclass, haccept, hvisible⟩
    rw [lookup, List.find?_isSome]
    exact ⟨⟨c, id⟩, List.mem_map.mpr ⟨c, List.mem_filter.mpr ⟨hclass, haccept⟩, rfl⟩, hvisible⟩

theorem getRecord_eq_ok {className id : String} :
    s.getRecord className id = .ok r ↔ s.find className id = some r := by
  unfold getRecord
  cases s.find className id <;> simp

theorem find_eq_some {className id : String} (h : s.find className id = some r) :
    s.Visible r ∧ r.id = id ∧ s.hierarchy.isA r.className className = true
      ∧ r.className ∈ s.classes := by
  rw [find] at h
  exact lookup_eq_some h

theorem find_isSome_iff {className id : String} :
    (s.find className id).isSome = true
      ↔ ∃ c ∈ s.classes, s.hierarchy.isA c className = true ∧ s.Visible ⟨c, id⟩ := by
  rw [find]
  exact lookup_isSome_iff

/-- A visible record conflicts with a class and an id if it has the id, and its class is above or below. -/
theorem conflict_isSome_iff {className id : String} :
    (s.conflict className id).isSome = true
      ↔ ∃ c ∈ s.classes, (s.hierarchy.isA c className = true ∨ s.hierarchy.isA className c = true)
        ∧ s.Visible ⟨c, id⟩ := by
  rw [conflict]
  simp only [lookup_isSome_iff, Bool.or_eq_true]

/-! ### Listing records -/

theorem nodup_eraseDups {α : Type} [DecidableEq α] : (xs : List α) → xs.eraseDups.Nodup
  | [] => by simp
  | x :: xs => by
    rw [List.eraseDups_cons, List.nodup_cons]
    refine ⟨fun hx => ?_, nodup_eraseDups _⟩
    simpa using (List.mem_filter.mp (List.mem_eraseDups.mp hx)).2
termination_by xs => xs.length
decreasing_by exact Nat.lt_succ_of_le (List.length_filter_le _ xs)

/-- A visible record of a visible class. -/
structure Listed (s : Store) (r : RecordRef) : Prop where
  visible : s.Visible r
  className : r.className ∈ s.classes

theorem declaration_ok_iff {className : String} :
    (∃ d, s.hierarchy.declaration className = .ok d) ↔ className ∈ s.classes := by
  simp only [Hierarchy.declaration_eq_ok]
  exact OrderedMap.mem_keys_iff.symm

variable {className : String} {rs : List RecordRef}

/-- The records of a class can be listed if the class is visible: what the visible databases hold of it
and of the classes below, each once. -/
theorem records_eq_ok_iff : s.records className = .ok rs ↔ className ∈ s.classes
    ∧ rs = ((s.databasesIn s.visible).flatMap fun d =>
      d.records.keys.filter fun r => s.hierarchy.isA r.className className).eraseDups := by
  rw [← declaration_ok_iff]
  unfold records
  cases hdeclared : s.hierarchy.declaration className with
  | error e => simp [hdeclared, bind, Except.bind]
  | ok d => simp [hdeclared, bind, Except.bind, pure, Except.pure, @eq_comm _ rs]

theorem records_ok_iff : (∃ rs, s.records className = .ok rs) ↔ className ∈ s.classes := by
  simp only [records_eq_ok_iff, exists_and_left, exists_eq, and_true]

/-- What derives from a visible class is visible. -/
theorem mem_classes_of_isA {base : String} (hbase : base ∈ s.classes)
    (hisA : s.hierarchy.isA className base = true) : className ∈ s.classes := by
  rcases NameGraph.leads_iff.mp (Hierarchy.isA_iff_leads.mp hisA) with rfl | ⟨_, hstep, -⟩
  · exact hbase
  · obtain ⟨d, hd, -⟩ := Hierarchy.step_superGraph.mp hstep
    exact OrderedMap.mem_keys_iff.mpr ⟨d, hd⟩

/-- The listed records of a class are the visible ones of it and of the classes below. -/
theorem mem_records_iff (hrs : s.records className = .ok rs) :
    r ∈ rs ↔ s.Listed r ∧ s.hierarchy.isA r.className className = true := by
  obtain ⟨hclass, rfl⟩ := records_eq_ok_iff.mp hrs
  simp only [List.mem_eraseDups, List.mem_flatMap, databasesIn, List.mem_filterMap, List.mem_filter,
    ← OrderedMap.contains_iff_mem_keys]
  constructor
  · rintro ⟨d, ⟨name, hname, hget⟩, hholds, hisA⟩
    exact ⟨⟨visible_iff.mpr ⟨name, hname, d, hget, hholds⟩, mem_classes_of_isA hclass hisA⟩, hisA⟩
  · rintro ⟨hr, hisA⟩
    obtain ⟨name, hname, d, hget, hholds⟩ := visible_iff.mp hr.visible
    exact ⟨d, ⟨name, hname, hget⟩, hholds, hisA⟩

theorem nodup_records (hrs : s.records className = .ok rs) : rs.Nodup := by
  obtain ⟨-, rfl⟩ := records_eq_ok_iff.mp hrs
  exact nodup_eraseDups _

theorem listed_of_mem_records (hrs : s.records className = .ok rs) (hr : r ∈ rs) : s.Listed r :=
  ((mem_records_iff hrs).mp hr).1

theorem Listed.mem_records (h : s.Listed r) (hrs : s.records r.className = .ok rs) : r ∈ rs :=
  (mem_records_iff hrs).mpr ⟨h, Hierarchy.isA_refl _ _⟩

/-! ### Reading -/

/-- What is stored for a field, where nothing stored reads as null or as the empty list. -/
def stored (s : Store) (place : String) (r : RecordRef) (name : String) (multi : Bool) : Value :=
  ((((s.databases.get? place).bind fun d => d.records.get? r).bind fun fields =>
    fields.get? name)).getD (if multi then .list [] else .null)

theorem read_eq_ok {name : String} {accessor : Accessor} {v : Value}
    (h : s.read r name accessor = .ok v) :
    ∃ place, s.location r = some place ∧ s.checkField r name = .ok ()
      ∧ v = s.stored place r name accessor.multi
      ∧ (accessor.isObject = true → ∀ t ∈ v.targets, s.Visible t) := by
  unfold read locateVisible at h
  cases hplace : s.location r with
  | none => simp [hplace, bind, Except.bind] at h
  | some place =>
    simp only [hplace, bind, Except.bind] at h
    cases hcheck : s.checkField r name with
    | error e => simp [hcheck] at h
    | ok u =>
      simp only [hcheck, database] at h
      cases hget : s.databases.get? place with
      | none => simp [hget] at h
      | some d =>
        simp only [hget] at h
        refine ⟨place, rfl, rfl, ?_⟩
        have hstored : s.stored place r name accessor.multi
            = ((d.records.get? r).bind fun fields => fields.get? name).getD
              (if accessor.multi then .list [] else .null) := by
          simp [stored, hget]
        rw [hstored]
        cases hobject : accessor.isObject with
        | false =>
          simp only [hobject, pure, Except.pure, Bool.false_eq_true, if_false, Except.ok.injEq] at h
          exact ⟨h.symm, by simp⟩
        | true =>
          simp only [hobject, if_true] at h
          split at h
          · simp at h
          · rename_i hall
            simp only [pure, Except.pure, Except.ok.injEq] at h
            subst h
            refine ⟨rfl, fun _ t ht => ?_⟩
            have hseen := List.find?_eq_none.mp hall t ht
            unfold Visible location
            cases hlocate : s.locate s.visible t with
            | none => simp [hlocate] at hseen
            | some other => rfl

/-- The class of a record with a field that can be read or written is visible. -/
theorem mem_classes_of_checkField {name : String} (h : s.checkField r name = .ok ()) :
    r.className ∈ s.classes := by
  unfold checkField Hierarchy.hasField Hierarchy.lineage at h
  cases hdeclared : s.hierarchy.declaration r.className with
  | error e => simp [hdeclared, bind, Except.bind] at h
  | ok d => exact OrderedMap.mem_keys_iff.mpr ⟨d, Hierarchy.declaration_eq_ok.mp hdeclared⟩

theorem mem_classes_of_read {name : String} {accessor : Accessor} {v : Value}
    (h : s.read r name accessor = .ok v) : r.className ∈ s.classes := by
  obtain ⟨_, _, hfield, _⟩ := read_eq_ok h
  exact mem_classes_of_checkField hfield

end Store

end RecordGraph
