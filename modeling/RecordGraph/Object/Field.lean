import RecordGraph.Value

/-!
Fields of objects: attribute values, and the objects that relations point to.
-/

namespace RecordGraph

/-- Names an object. -/
structure ObjectId where
  index : Nat
deriving DecidableEq, Repr

instance : Inhabited ObjectId := ⟨⟨0⟩⟩

/-- What a field of an object holds. -/
inductive Field
  | unset
  | value (v : Value)
  /-- The target of a relation to one object. -/
  | object (target : ObjectId)
  /-- The targets of a relation to many objects. -/
  | objects (targets : List ObjectId)
deriving Repr

instance : Inhabited Field := ⟨.unset⟩

namespace Field

/-- Whether a field holds nothing, or null. -/
def isUnset : Field → Bool
  | .unset => true
  | .value v => v.isNull
  | _ => false

def isObjects : Field → Bool
  | .objects _ => true
  | _ => false

/-- Whether a field holds a list of values or of objects. -/
def isSequence : Field → Bool
  | .objects _ => true
  | .value v => v.isList
  | _ => false

def asValue? : Field → Option Value
  | .value v => some v
  | _ => none

def asObject? : Field → Option ObjectId
  | .object target => some target
  | _ => none

def asObjects? : Field → Option (List ObjectId)
  | .objects targets => some targets
  | _ => none

/-- Every object that a field points to. -/
def targets : Field → List ObjectId
  | .object target => [target]
  | .objects targets => targets
  | _ => []

/-- The field of a relation to one object that may be missing. -/
def ofTarget? : Option ObjectId → Field
  | some target => .object target
  | none => .unset

/-- A field as messages show it, given the names of objects. -/
def render (nameOf : ObjectId → String) : Field → String
  | .unset => "<unset>"
  | .value v => v.render
  | .object target => "<" ++ nameOf target ++ ">"
  | .objects targets =>
    "[" ++ String.intercalate ", " (targets.map fun t => "<" ++ nameOf t ++ ">") ++ "]"

/-- Equality of fields, given that of objects. -/
def same (sameObject : ObjectId → ObjectId → Bool) : Field → Field → Bool
  | .unset, .unset => true
  | .value v, .value w => v.same w
  | .object a, .object b => sameObject a b
  | .objects as, .objects bs => as.length == bs.length && (as.zip bs).all fun p => sameObject p.1 p.2
  | _, _ => false

end Field

end RecordGraph
