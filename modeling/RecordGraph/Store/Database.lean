import RecordGraph.OrderedMap
import RecordGraph.Value

/-!
Databases: records with their fields, and the names that a database includes.
-/

namespace RecordGraph

/-- The stored fields of a record. -/
abbrev Fields := OrderedMap String Value

namespace Value

/-- The records that a value points to, at any depth. -/
def targets : Value → List RecordRef
  | .record r => [r]
  | .list items => go items
  | _ => []
where
  go : List Value → List RecordRef
    | [] => []
    | v :: vs => v.targets ++ go vs

def refersTo (v : Value) (r : RecordRef) : Bool := v.targets.contains r

/-- The value with every reference to one record replaced by another. -/
def retarget (source target : RecordRef) : Value → Value
  | .record r => .record (if r = source then target else r)
  | .list items => .list (go items)
  | v => v
where
  go : List Value → List Value
    | [] => []
    | v :: vs => v.retarget source target :: go vs

end Value

/-- A named database. -/
structure Database where
  /-- The databases and schema documents that this one sees. -/
  includes : List String := []
  records : OrderedMap RecordRef Fields := .empty
  readOnly : Bool := false
  /-- The comments of all commits, oldest first. -/
  comments : List String := []
deriving Repr

namespace Database

def holds (d : Database) (r : RecordRef) : Bool := d.records.contains r

/-- The other records with a field that points to a record. -/
def referrers (d : Database) (target : RecordRef) : List RecordRef :=
  (d.records.entries.filter fun e =>
    e.1 != target && e.2.values.any fun v => v.refersTo target).map Prod.fst

/-- Points every reference to one record at another. -/
def retarget (d : Database) (source target : RecordRef) : Database :=
  { d with records := d.records.mapValues fun _ fields =>
      fields.mapValues fun _ v => v.retarget source target }

end Database

end RecordGraph
