import RecordGraph.Object.Field
import RecordGraph.Registry.ClassType

/-!
Objects: instances of derived types that live beside the records of a store until they are
persisted.
-/

namespace RecordGraph

/-- An object. -/
structure Object where
  type : ClassType
  id : String
  /-- The fields that hold something. -/
  fields : OrderedMap String Field := .empty
  /-- The relations written since the object was last persisted. -/
  touched : List String := []
  /-- The id before the first rename that was not persisted yet. -/
  oldId : Option String := none
deriving Repr

instance : Inhabited Object := ⟨{ type := default, id := "" }⟩

namespace Object

def className (o : Object) : String := o.type.name

def schema (o : Object) : ClassSchema := o.type.schema

/-- The record that the object stands for. -/
def record (o : Object) : RecordRef := ⟨o.className, o.id⟩

/-- The id with the name of the class. -/
def fullName (o : Object) : String := o.record.fullName

/-- The id under which the store knows the object. -/
def storedId (o : Object) : String := o.oldId.getD o.id

/-- Puts a value into a field, or clears it. -/
def load (o : Object) (name : String) (f : Field) : Object :=
  { o with fields := if f.isUnset then o.fields.erase name else o.fields.insert name f }

/-- Puts a value into a field, and notes that a relation was written. -/
def write (o : Object) (name : String) (f : Field) : Object :=
  let o := o.load name f
  if (o.schema.relation? name).isSome && !o.touched.contains name then
    { o with touched := o.touched ++ [name] }
  else o

/-- What a field that holds nothing reads as.  Initial values and empty lists are kept in the object
from then on. -/
def initial (o : Object) (name : String) : Except Error Field :=
  match o.schema.attribute? name with
  | some a =>
    match a.initial? with
    | some v => .ok (.value v)
    | none => .ok (if a.multivalue then .value (.list []) else .unset)
  | none =>
    match o.schema.relation? name with
    | some r => .ok (if r.multivalue then .objects [] else .unset)
    | none => .error (.unknownField o.className name)

/-- Reads a field, with the object that keeps what was read. -/
def read (o : Object) (name : String) : Except Error (Field × Object) :=
  if name = "id" then .ok (.value (.text o.id), o)
  else match o.fields.get? name with
    | some f => .ok (f, o)
    | none => do
      match ← o.initial name with
      | .unset => pure (.unset, o)
      | f => pure (f, { o with fields := o.fields.insert name f })

/-- The objects that the relations point to, in the order of the schema. -/
def related (o : Object) : List ObjectId :=
  (o.schema.relations.keys.filterMap o.fields.get?).flatMap Field.targets

/-! ### Listings -/

/-- What stands for a field that holds nothing. -/
def placeholder (initial : Option Value) (notNull : Bool) : String :=
  match initial with
  | some v => "<unset, defaults to " ++ v.render ++ ">"
  | none => if notNull then "<unset, must be set>" else "<unset>"

/-- A listing of the fields, given the names of objects. -/
def listing (nameOf : ObjectId → String) (o : Object) : String :=
  let line (name : String) (initial : Option Value) (notNull : Bool) : String :=
    let content := match o.fields.get? name with
      | some f => f.render nameOf
      | none => placeholder initial notNull
    "  " ++ name ++ ": " ++ content ++ "\n"
  o.fullName ++ ":\n"
    ++ String.join (o.schema.attributes.values.map fun a => line a.name a.initial? a.notNull)
    ++ String.join (o.schema.relations.values.map fun r => line r.name none r.notNull)

end Object

end RecordGraph
