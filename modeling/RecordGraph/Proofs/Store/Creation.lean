import RecordGraph.Proofs.Store.Writing

/-!
Making and renaming records.  Neither changes which names are visible, nor what a class is.  A record
is made only where no visible record stands in its way; it is empty, and whatever was visible before
stays where it was with what is stored for it.
-/

namespace RecordGraph

open RecordGraph.Computation

namespace Store

variable {s t u : Store} {r r' : RecordRef} {place place' name className id : String}

/-- In two stores the same names are visible, and classes are the same. -/
structure SameScope (s t : Store) : Prop where
  schemas : t.schemas = s.schemas
  loaded : t.loaded = s.loaded
  includeGraph : t.includeGraph = s.includeGraph

namespace SameScope

theorem refl (s : Store) : s.SameScope s := ⟨rfl, rfl, rfl⟩

theorem trans (hst : s.SameScope t) (htu : t.SameScope u) : s.SameScope u :=
  ⟨htu.schemas.trans hst.schemas, htu.loaded.trans hst.loaded,
    htu.includeGraph.trans hst.includeGraph⟩

variable (h : s.SameScope t)

include h

theorem closure (roots : List String) : t.closure roots = s.closure roots := by
  unfold Store.closure
  rw [h.includeGraph]

theorem visible : t.visible = s.visible := by
  unfold Store.visible
  rw [h.closure, h.loaded]

theorem hierarchy : t.hierarchy = s.hierarchy := by
  unfold Store.hierarchy
  rw [h.visible, h.schemas]

theorem classes : t.classes = s.classes := by
  unfold Store.classes
  rw [h.hierarchy]

end SameScope

theorem SameShape.scope (h : s.SameShape t) : s.SameScope t where
  schemas := by
    have hbare : t.bare.schemas = s.bare.schemas := congrArg Store.schemas h
    exact hbare
  loaded := h.loaded
  includeGraph := by rw [← includeGraph_bare, h, includeGraph_bare]

/-- Changing databases in nothing but their records. -/
theorem sameScope_mapValues {f : String → Database → Database} {renames : Nat}
    (hf : ∀ name d, (f name d).includes = d.includes) :
    s.SameScope { s with databases := s.databases.mapValues f, renames } := by
  refine ⟨rfl, rfl, ?_⟩
  unfold includeGraph
  rw [OrderedMap.mapValues_mapValues]
  exact OrderedMap.mapValues_congr fun e _ => hf e.1 e.2

/-! ### New records -/

/-- The store with an empty record in a database. -/
def withRecord (s : Store) (place : String) (r : RecordRef) : Store :=
  { s with databases := s.databases.modify place fun d =>
      { d with records := d.records.insert r .empty } }

theorem sameScope_withRecord (s : Store) (place : String) (r : RecordRef) :
    s.SameScope (s.withRecord place r) := by
  refine sameScope_mapValues fun name d => ?_
  split <;> rfl

theorem get?_withRecord (name : String) :
    (s.withRecord place r).databases.get? name
      = if name = place
        then (s.databases.get? place).map fun d => { d with records := d.records.insert r .empty }
        else s.databases.get? name :=
  OrderedMap.get?_modify ..

theorem locate_withRecord (scope : List String) (hne : r' ≠ r) :
    (s.withRecord place r).locate scope r' = s.locate scope r' := by
  unfold locate
  congr 1
  funext name
  rw [get?_withRecord]
  by_cases hname : name = place
  · subst hname
    rw [if_pos rfl]
    cases s.databases.get? name with
    | none => rfl
    | some d => simp [Database.holds, OrderedMap.contains_insert, hne]
  · rw [if_neg hname]

theorem location_withRecord (hne : r' ≠ r) : (s.withRecord place r).location r' = s.location r' := by
  unfold location
  rw [(sameScope_withRecord s place r).visible, locate_withRecord _ hne]

/-- A new record is visible where its database is. -/
theorem location_withRecord_self {d : Database} (hd : s.databases.get? place = some d)
    (hplace : place ∈ s.visible) (hnew : ¬ s.Visible r) :
    (s.withRecord place r).location r = some place := by
  have hholds : ∀ name ∈ s.visible, ∀ d', (s.withRecord place r).databases.get? name = some d' →
      d'.holds r = true → name = place := by
    intro name hname d' hother hfound
    by_cases heq : name = place
    · exact heq
    · rw [get?_withRecord, if_neg heq] at hother
      exact absurd (locate_isSome_iff.mpr ⟨name, hname, d', hother, hfound⟩) hnew
  have hsome : ((s.withRecord place r).location r).isSome = true := by
    refine locate_isSome_iff.mpr ⟨place, ?_, { d with records := d.records.insert r .empty }, ?_, ?_⟩
    · rwa [(sameScope_withRecord s place r).visible]
    · rw [get?_withRecord, if_pos rfl, hd]
      rfl
    · simp [Database.holds, OrderedMap.contains_insert]
  obtain ⟨name, hname⟩ := Option.isSome_iff_exists.mp hsome
  obtain ⟨hmem, d', hd', hfound⟩ := locate_eq_some hname
  rw [(sameScope_withRecord s place r).visible] at hmem
  rw [hname, hholds name hmem d' hd' hfound]

theorem stored_withRecord (hne : r' ≠ r) (multi : Bool) :
    (s.withRecord place r).stored place' r' name multi = s.stored place' r' name multi := by
  unfold stored
  rw [get?_withRecord]
  by_cases hplace : place' = place
  · subst hplace
    rw [if_pos rfl]
    cases s.databases.get? place' with
    | none => rfl
    | some d => simp [OrderedMap.get?_insert, hne]
  · rw [if_neg hplace]

/-- Nothing is stored for a new record. -/
theorem stored_withRecord_self {d : Database} (hd : s.databases.get? place = some d) (multi : Bool) :
    (s.withRecord place r).stored place r name multi = if multi then .list [] else .null := by
  unfold stored
  rw [get?_withRecord, if_pos rfl, hd]
  simp [OrderedMap.get?_insert]

/-- A declared class has no record with an id that conflicts with nothing. -/
theorem not_visible_of_conflict (hclass : className ∈ s.classes)
    (hnone : s.conflict className id = none) : ¬ s.Visible ⟨className, id⟩ := by
  intro hvisible
  have hsome : (s.conflict className id).isSome = true :=
    conflict_isSome_iff.mpr ⟨className, hclass, Or.inl (Hierarchy.isA_refl _ _), hvisible⟩
  simp [hnone] at hsome

theorem checkWritable_eq_ok :
    s.checkWritable place = .ok () ↔ ∃ d, s.databases.get? place = some d ∧ d.readOnly = false := by
  rw [checkWritable, database]
  cases s.databases.get? place with
  | none => simp [bind, Except.bind]
  | some d => cases hlocked : d.readOnly <;> simp [hlocked, bind, Except.bind, pure, Except.pure]

theorem get?_of_checkWritable (h : s.checkWritable place = .ok ()) :
    ∃ d, s.databases.get? place = some d := by
  obtain ⟨d, hd, -⟩ := checkWritable_eq_ok.mp h
  exact ⟨d, hd⟩

/-- What making a record relies on and does, if it can be made. -/
theorem createRecord_run (hrun : Store.createRecord place className id s = (.ok r, t)) :
    r = ⟨className, id⟩ ∧ t = s.withRecord place ⟨className, id⟩ ∧ className ∈ s.classes
      ∧ s.conflict className id = none ∧ s.checkWritable place = .ok () := by
  obtain ⟨_, s₁, hask, hrun⟩ := bind_eq_ok.mp hrun
  obtain ⟨hwritable, rfl⟩ := ask_eq_ok hask
  obtain ⟨declaration, s₂, hask, hrun⟩ := bind_eq_ok.mp hrun
  obtain ⟨hdeclared, rfl⟩ := ask_eq_ok hask
  rw [bind_of_ok (get_apply _)] at hrun
  obtain ⟨d, hd⟩ := get?_of_checkWritable hwritable
  have hclass : className ∈ s.classes :=
    OrderedMap.mem_keys_iff.mpr ⟨_, Hierarchy.declaration_eq_ok.mp hdeclared⟩
  cases hconflict : s.conflict className id with
  | some existing => simp [hconflict] at hrun
  | none =>
    simp only [hconflict] at hrun
    rw [bind_of_ok (changeDatabase_apply hd _)] at hrun
    obtain ⟨heq, rfl⟩ := Prod.mk.inj hrun
    exact ⟨(Except.ok.inj heq).symm, rfl, hclass, rfl, hwritable⟩

/-- A record can be made of a visible class in a database that may be written to, where no visible
record stands in its way. -/
theorem createRecord_of_free (hdeclared : className ∈ s.classes)
    (hwritable : s.checkWritable place = .ok ()) (hfree : s.conflict className id = none) :
    Store.createRecord place className id s
      = (.ok ⟨className, id⟩, s.withRecord place ⟨className, id⟩) := by
  obtain ⟨declaration, hdeclaration⟩ := OrderedMap.mem_keys_iff.mp hdeclared
  obtain ⟨d, hd⟩ := get?_of_checkWritable hwritable
  have hask : Store.ask (fun s => s.hierarchy.declaration className) s = (.ok declaration, s) := by
    rw [ask_apply, Hierarchy.declaration_eq_ok.mpr hdeclaration]
  have hcheck : Store.ask (fun s => s.checkWritable place) s = (.ok (), s) := by
    rw [ask_apply, hwritable]
  rw [Store.createRecord, bind_of_ok hcheck, bind_of_ok hask, bind_of_ok (get_apply s)]
  simp only [hfree]
  rw [bind_of_ok (changeDatabase_apply hd _)]
  rfl

end Store

/-! ### Renamed records -/

/-- The database with a record under another name. -/
def Database.moved (r renamed : RecordRef) (d : Database) : Database :=
  { d with records := (d.records.erase r).insert renamed ((d.records.get? r).getD .empty) }

namespace Store

variable {s t : Store} {r r' : RecordRef} {place newId : String}

/-- The store with a record under another name, which all references to it follow. -/
def withRenamed (s : Store) (place : String) (r renamed : RecordRef) : Store :=
  { s with
    databases := (s.databases.modify place (Database.moved r renamed)).mapValues fun _ d =>
      d.retarget r renamed
    renames := s.renames + 1 }

theorem sameScope_withRenamed (s : Store) (place : String) (r renamed : RecordRef) :
    s.SameScope (s.withRenamed place r renamed) := by
  unfold withRenamed OrderedMap.modify
  rw [OrderedMap.mapValues_mapValues]
  refine sameScope_mapValues fun name d => ?_
  split <;> rfl

/-- What renaming a record relies on and does, if it can be renamed. -/
theorem renameRecord_run (hrun : Store.renameRecord r newId s = (.ok r', t)) :
    r' = ⟨r.className, newId⟩ ∧ ∃ place, s.location r = some place
      ∧ s.checkWritable place = .ok () ∧ s.conflict r.className newId = none
      ∧ t = s.withRenamed place r ⟨r.className, newId⟩ := by
  obtain ⟨place, s₁, hask, hrun⟩ := bind_eq_ok.mp hrun
  obtain ⟨hplace, rfl⟩ := ask_eq_ok hask
  obtain ⟨_, s₂, hask, hrun⟩ := bind_eq_ok.mp hrun
  obtain ⟨hwritable, rfl⟩ := ask_eq_ok hask
  rw [bind_of_ok (get_apply _)] at hrun
  have hlocation := locateVisible_eq_ok.mp hplace
  obtain ⟨d, hd, -⟩ := get?_of_location hlocation
  cases hconflict : s.conflict r.className newId with
  | some existing => simp [hconflict] at hrun
  | none =>
    simp only [hconflict] at hrun
    rw [bind_of_ok (changeDatabase_apply hd _)] at hrun
    obtain ⟨_, s₃, hmodify, hpure⟩ := bind_eq_ok.mp hrun
    rw [modify_apply] at hmodify
    obtain ⟨-, rfl⟩ := Prod.mk.inj hmodify
    obtain ⟨heq, rfl⟩ := Prod.mk.inj hpure
    exact ⟨(Except.ok.inj heq).symm, place, hlocation, hwritable, rfl, rfl⟩

end Store

end RecordGraph
