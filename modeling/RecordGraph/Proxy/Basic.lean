import RecordGraph.Registry.ClassType

/-!
Proxies: views of single records that know the schema of their class.  Relations lead to further
proxies and are fetched once.
-/

namespace RecordGraph

/-- Names a proxy. -/
structure ProxyId where
  index : Nat
deriving DecidableEq, Repr

/-- What a relation of a record leads to. -/
inductive Related
  | one (target : Option ProxyId)
  | many (targets : List ProxyId)
deriving DecidableEq, Repr

namespace Related

def empty (multivalue : Bool) : Related := if multivalue then .many [] else .one none

def targets : Related → List ProxyId
  | .one target => target.toList
  | .many targets => targets

def isEmpty (r : Related) : Bool := r.targets.isEmpty

def isMany : Related → Bool
  | .one _ => false
  | .many _ => true

/-- What a relation leads to as messages show it, given the names of records. -/
def render (nameOf : ProxyId → String) : Related → String
  | .one none => "none"
  | .one (some target) => "<" ++ nameOf target ++ ">"
  | .many targets =>
    "[" ++ String.intercalate ", " (targets.map fun t => "<" ++ nameOf t ++ ">") ++ "]"

/-- The value that a store keeps for a relation, given the records of proxies. -/
def toValue (recordOf : ProxyId → RecordRef) : Related → Value
  | .one none => .null
  | .one (some target) => .record (recordOf target)
  | .many targets => .list (targets.map fun t => .record (recordOf t))

end Related

/-- A view of a record. -/
structure Proxy where
  record : RecordRef
  schema : ClassSchema
  /-- The registry that knows the schemas of related records. -/
  registry : RegistryId
  /-- The relations that were fetched or written. -/
  relations : OrderedMap String Related := .empty
  /-- The relations that read as empty because they could not be fetched. -/
  degraded : List String := []
deriving Repr

instance : Inhabited Proxy := ⟨{ record := ⟨"", ""⟩, schema := default, registry := default }⟩

namespace Proxy

/-- Keeps a relation that was fetched. -/
def cache (p : Proxy) (name : String) (r : Related) : Proxy :=
  { p with relations := p.relations.insert name r }

/-- Marks a relation that could not be fetched. -/
def degrade (p : Proxy) (name : String) : Proxy :=
  { p with degraded := if p.degraded.contains name then p.degraded else p.degraded ++ [name] }

/-- Takes the mark off a relation. -/
def restore (p : Proxy) (name : String) : Proxy :=
  { p with degraded := p.degraded.filter (· ≠ name) }

end Proxy

/-- What a field of a record reads as through a proxy. -/
inductive ProxyField
  | attribute (v : Value)
  | relation (r : Related)
deriving Repr

end RecordGraph
