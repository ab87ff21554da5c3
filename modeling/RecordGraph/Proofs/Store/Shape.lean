import RecordGraph.Proofs.Store.Visibility
import RecordGraph.Store.Operations

/-!
The shape of a store: all of it but the fields of its records.  What is visible, which fields a class
has and which records can be found depends on the shape alone, and writing a field keeps the shape.
-/

namespace RecordGraph

namespace Database

/-- A database without the fields of its records. -/
def bare (d : Database) : Database := { d with records := d.records.mapValues fun _ _ => .empty }

@[simp] theorem keys_records_bare (d : Database) : d.bare.records.keys = d.records.keys :=
  OrderedMap.keys_mapValues _ _

@[simp] theorem holds_bare (d : Database) (r : RecordRef) : d.bare.holds r = d.holds r := by
  unfold holds
  rw [Bool.eq_iff_iff, OrderedMap.contains_iff_mem_keys, OrderedMap.contains_iff_mem_keys,
    keys_records_bare]

/-- Databases that list the same records differ only in fields. -/
theorem bare_insert (d : Database) {r : RecordRef} {fields : Fields} (hr : d.holds r = true) :
    Database.bare { d with records := d.records.insert r fields } = d.bare := by
  unfold bare
  rw [OrderedMap.mapValues_insert_const hr]

end Database

namespace Store

/-- A store without the fields of its records. -/
def bare (s : Store) : Store := { s with databases := s.databases.mapValues fun _ d => d.bare }

variable {s t : Store} {r : RecordRef}

theorem get?_bare (s : Store) (name : String) :
    s.bare.databases.get? name = (s.databases.get? name).map Database.bare :=
  OrderedMap.get?_mapValues _ _ _

@[simp] theorem includeGraph_bare (s : Store) : s.bare.includeGraph = s.includeGraph := by
  unfold includeGraph bare
  rw [OrderedMap.mapValues_mapValues]
  rfl

@[simp] theorem closure_bare (s : Store) (roots : List String) :
    s.bare.closure roots = s.closure roots := by
  unfold closure
  rw [includeGraph_bare]

@[simp] theorem visible_bare (s : Store) : s.bare.visible = s.visible := closure_bare s s.loaded

@[simp] theorem hierarchy_bare (s : Store) : s.bare.hierarchy = s.hierarchy := by
  unfold hierarchy
  rw [visible_bare]
  rfl

@[simp] theorem classes_bare (s : Store) : s.bare.classes = s.classes := by
  unfold classes
  rw [hierarchy_bare]

@[simp] theorem locate_bare (s : Store) (scope : List String) (r : RecordRef) :
    s.bare.locate scope r = s.locate scope r := by
  unfold locate
  congr 1
  funext name
  rw [get?_bare]
  cases s.databases.get? name with
  | none => rfl
  | some d => exact d.holds_bare r

@[simp] theorem location_bare (s : Store) (r : RecordRef) : s.bare.location r = s.location r := by
  unfold location
  rw [visible_bare, locate_bare]

@[simp] theorem locateVisible_bare (s : Store) (r : RecordRef) :
    s.bare.locateVisible r = s.locateVisible r := by
  unfold locateVisible
  rw [location_bare]

@[simp] theorem lookup_bare (s : Store) (id : String) (accept : String → Bool) :
    s.bare.lookup id accept = s.lookup id accept := by
  simp only [lookup, visible_bare, classes_bare, locate_bare]

@[simp] theorem find_bare (s : Store) (className id : String) :
    s.bare.find className id = s.find className id := by
  simp only [find, hierarchy_bare, lookup_bare]

@[simp] theorem checkField_bare (s : Store) (r : RecordRef) (name : String) :
    s.bare.checkField r name = s.checkField r name := by
  unfold checkField
  rw [hierarchy_bare]

/-- Two stores have one shape. -/
def SameShape (s t : Store) : Prop := t.bare = s.bare

namespace SameShape

theorem refl (s : Store) : s.SameShape s := rfl

theorem trans {u : Store} (hst : s.SameShape t) (htu : t.SameShape u) : s.SameShape u :=
  Eq.trans htu hst

variable (h : s.SameShape t)

include h

theorem visible : t.visible = s.visible := by rw [← visible_bare, h, visible_bare]

theorem locate (scope : List String) (r : RecordRef) : t.locate scope r = s.locate scope r := by
  rw [← locate_bare, h, locate_bare]

theorem location (r : RecordRef) : t.location r = s.location r := by
  rw [← location_bare, h, location_bare]

theorem locateVisible (r : RecordRef) : t.locateVisible r = s.locateVisible r := by
  rw [← locateVisible_bare, h, locateVisible_bare]

theorem find (className id : String) : t.find className id = s.find className id := by
  rw [← find_bare, h, find_bare]

theorem checkField (r : RecordRef) (name : String) : t.checkField r name = s.checkField r name := by
  rw [← checkField_bare, h, checkField_bare]

theorem loaded : t.loaded = s.loaded := by
  have hbare : t.bare.loaded = s.bare.loaded := congrArg Store.loaded h
  exact hbare

theorem renames : t.renames = s.renames := by
  have hbare : t.bare.renames = s.bare.renames := congrArg Store.renames h
  exact hbare

theorem getRecord (className id : String) : t.getRecord className id = s.getRecord className id := by
  unfold Store.getRecord
  rw [h.find]

end SameShape

end Store

end RecordGraph
