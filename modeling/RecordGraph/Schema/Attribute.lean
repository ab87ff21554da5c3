import RecordGraph.Schema.Range
import RecordGraph.Value

/-!
Attributes and relations of classes: how a schema declares them, and the form in which they are used.
An attribute is bound before values are coerced for it, which compiles its range and its initial
value.
-/

namespace RecordGraph

/-- What an accessor of a store reads or writes. -/
inductive AccessorKind
  | attribute (type : AttributeType)
  | object
deriving DecidableEq, Repr

/-- The way in which a field is read from a store or written to it: as what, and whether as one value
or as a list. -/
structure Accessor where
  kind : AccessorKind
  multi : Bool
deriving DecidableEq, Repr

namespace Accessor

def isObject (a : Accessor) : Bool := a.kind = .object

/-- Every text is read as a string. -/
def getter (type : AttributeType) (multi : Bool) : Accessor :=
  ⟨.attribute (if type.isText then .text .string else type), multi⟩

def setter (type : AttributeType) (multi : Bool) : Accessor := ⟨.attribute type, multi⟩

def object (multi : Bool) : Accessor := ⟨.object, multi⟩

end Accessor

/-- How many values a field holds, as a pair of bounds. -/
def cardinalityText (multivalue notNull : Bool) : String :=
  match notNull, multivalue with
  | false, false => "0..1"
  | true, false => "1..1"
  | false, true => "0..*"
  | true, true => "1..*"

/-- An attribute as a schema declares it. -/
structure AttributeDeclaration where
  name : String
  type : String
  range : Option String := none
  multivalue : Bool := false
  notNull : Bool := false
  initialValue : Option String := none
  description : String := ""
deriving DecidableEq, Repr

/-- A relation as a schema declares it. -/
structure RelationDeclaration where
  name : String
  target : String
  multivalue : Bool := false
  notNull : Bool := false
  aggregation : Bool := false
  description : String := ""
deriving DecidableEq, Repr

/-- What binding adds to an attribute. -/
structure Binding where
  range : Range
  initial : Option Value := none
deriving Repr

/-- An attribute of a class. -/
structure Attribute where
  name : String
  type : AttributeType
  multivalue : Bool
  notNull : Bool
  rangeSource : Option String
  initialSource : Option String
  description : String
  binding : Option Binding := none
deriving Repr

namespace Attribute

def ofDeclaration (d : AttributeDeclaration) : Except Error Attribute :=
  match AttributeType.ofTag? d.type with
  | some type => .ok
    { name := d.name, type, multivalue := d.multivalue, notNull := d.notNull
      rangeSource := d.range, initialSource := d.initialValue, description := d.description }
  | none => .error (.invalidSchema ("unknown attribute type `" ++ d.type ++ "`"))

def getter (a : Attribute) : Accessor := .getter a.type a.multivalue

def setter (a : Attribute) : Accessor := .setter a.type a.multivalue

def isBound (a : Attribute) : Bool := a.binding.isSome

/-- The compiled range; before binding there is no constraint. -/
def range (a : Attribute) : Range :=
  match a.binding with
  | some b => b.range
  | none => .unbounded

/-- The initial value, if the schema declares a valid one. -/
def initial? (a : Attribute) : Option Value := a.binding.bind Binding.initial

def cardinality (a : Attribute) : String := cardinalityText a.multivalue a.notNull

end Attribute

/-- A relation of a class. -/
structure Relation where
  name : String
  target : String
  multivalue : Bool
  notNull : Bool
  /-- Whether the relation owns its targets, which is told and has no effect. -/
  aggregation : Bool
  description : String
deriving DecidableEq, Repr

namespace Relation

def ofDeclaration (d : RelationDeclaration) : Relation :=
  { name := d.name, target := d.target, multivalue := d.multivalue, notNull := d.notNull
    aggregation := d.aggregation, description := d.description }

def accessor (r : Relation) : Accessor := .object r.multivalue

def cardinality (r : Relation) : String := cardinalityText r.multivalue r.notNull

end Relation

end RecordGraph
