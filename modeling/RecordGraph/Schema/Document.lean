import RecordGraph.Json
import RecordGraph.Schema.Attribute

/-!
Schema documents: the classes that a document contributes to what a store shows, and their JSON form.
A declaration is written as an object or as the array of its fields in their order.
-/

namespace RecordGraph

/-- A class as a schema document declares it, without what it inherits. -/
structure ClassDeclaration where
  name : String
  superclasses : List String := []
  attributes : List AttributeDeclaration := []
  relations : List RelationDeclaration := []
  description : String := ""
deriving DecidableEq, Repr

/-- A schema document. -/
structure SchemaDocument where
  classes : List ClassDeclaration := []
deriving DecidableEq, Repr

namespace SchemaDocument

/-! ### Reading -/

/-- The values given for the fields of a declaration.  An object may have other members, but none of
these twice; an array may leave out fields at its end, but not have more. -/
def fields? (names : List String) : Json → Option (List (Option Json))
  | .object members =>
    if members.any fun m => m.1.isNone then none
    else names.mapM fun name =>
      match members.filter fun m => m.1 = some name with
      | [] => some none
      | [m] => some (some m.2)
      | _ => none
  | .array items =>
    if items.length ≤ names.length then
      some (items.map some ++ List.replicate (names.length - items.length) none)
    else none
  | _ => none

def text? : Json → Option String
  | .string text => text
  | _ => none

def bool? : Json → Option Bool
  | .bool b => some b
  | _ => none

/-- A text or null. -/
def nullableText? : Json → Option (Option String)
  | .null => some none
  | v => (text? v).map some

def listOf? {α : Type} (read : Json → Option α) : Json → Option (List α)
  | .array items => items.mapM read
  | _ => none

/-- A field that may be left out. -/
def optional? {α : Type} (read : Json → Option α) (default : α) : Option Json → Option α
  | some v => read v
  | none => some default

/-- A field that must be given. -/
def required? {α : Type} (read : Json → Option α) (v : Option Json) : Option α := v.bind read

def attributeFields : List String :=
  ["name", "type", "range", "multivalue", "not-null", "init-value", "description"]

def relationFields : List String :=
  ["name", "type", "multivalue", "not-null", "aggregation", "description"]

def classFields : List String := ["name", "superclasses", "attributes", "relations", "description"]

def attribute? (v : Json) : Option AttributeDeclaration := do
  match ← fields? attributeFields v with
  | [name, type, range, multivalue, notNull, initialValue, description] => do
    pure
      { name := ← required? text? name
        type := ← required? text? type
        range := ← optional? nullableText? none range
        multivalue := ← optional? bool? false multivalue
        notNull := ← optional? bool? false notNull
        initialValue := ← optional? nullableText? none initialValue
        description := ← optional? text? "" description }
  | _ => none

def relation? (v : Json) : Option RelationDeclaration := do
  match ← fields? relationFields v with
  | [name, target, multivalue, notNull, aggregation, description] => do
    pure
      { name := ← required? text? name
        target := ← required? text? target
        multivalue := ← optional? bool? false multivalue
        notNull := ← optional? bool? false notNull
        aggregation := ← optional? bool? false aggregation
        description := ← optional? text? "" description }
  | _ => none

def class? (v : Json) : Option ClassDeclaration := do
  match ← fields? classFields v with
  | [name, superclasses, attributes, relations, description] => do
    pure
      { name := ← required? text? name
        superclasses := ← optional? (listOf? text?) [] superclasses
        attributes := ← optional? (listOf? attribute?) [] attributes
        relations := ← optional? (listOf? relation?) [] relations
        description := ← optional? text? "" description }
  | _ => none

def ofJson? (v : Json) : Option SchemaDocument := do
  match ← fields? ["classes"] v with
  | [classes] => do pure { classes := ← optional? (listOf? class?) [] classes }
  | _ => none

/-- Reads the text of a document. -/
def parse (text : String) : Except Error SchemaDocument :=
  match (Json.parse? text).bind ofJson? with
  | some d => .ok d
  | none => .error (.invalidSchema "malformed schema document: not a document of classes")

/-! ### Writing -/

def textJson (s : String) : Json := .string (some s)

def nullableJson : Option String → Json
  | some s => textJson s
  | none => .null

def objectJson (members : List (String × Json)) : Json :=
  .object (members.map fun m => (some m.1, m.2))

def attributeJson (a : AttributeDeclaration) : Json :=
  objectJson
    [ ("name", textJson a.name), ("type", textJson a.type), ("range", nullableJson a.range),
      ("multivalue", .bool a.multivalue), ("not-null", .bool a.notNull),
      ("init-value", nullableJson a.initialValue), ("description", textJson a.description) ]

def relationJson (r : RelationDeclaration) : Json :=
  objectJson
    [ ("name", textJson r.name), ("type", textJson r.target), ("multivalue", .bool r.multivalue),
      ("not-null", .bool r.notNull), ("aggregation", .bool r.aggregation),
      ("description", textJson r.description) ]

def classJson (c : ClassDeclaration) : Json :=
  objectJson
    [ ("name", textJson c.name), ("superclasses", .array (c.superclasses.map textJson)),
      ("attributes", .array (c.attributes.map attributeJson)),
      ("relations", .array (c.relations.map relationJson)), ("description", textJson c.description) ]

def toJson (d : SchemaDocument) : Json :=
  objectJson [("classes", .array (d.classes.map classJson))]

/-- The text of a document, with every field present. -/
def write (d : SchemaDocument) : String := d.toJson.write

end SchemaDocument

end RecordGraph
