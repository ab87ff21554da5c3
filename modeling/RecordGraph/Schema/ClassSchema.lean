import RecordGraph.Schema.Coercion
import RecordGraph.Schema.Hierarchy

/-!
The effective schema of a class: what it declares together with what it inherits, ready for use.
Loading one may report initial values that do not fit, and what was reported stays reported if the
loading fails later on.
-/

namespace RecordGraph

/-- A computation that may fail, and that reports what it had to ignore. -/
abbrev Logged := ExceptT Error (StateM (List Warning))

/-- A class with all of its fields, bound. -/
structure ClassSchema where
  name : String := ""
  attributes : OrderedMap String Attribute := .empty
  relations : OrderedMap String Relation := .empty
  /-- The direct superclasses. -/
  superclasses : List String := []
  /-- Every superclass, direct or not. -/
  ancestors : List String := []
  /-- The direct subclasses. -/
  subclasses : List String := []
  /-- Every subclass, direct or not. -/
  descendants : List String := []
deriving Repr

instance : Inhabited ClassSchema := ⟨{}⟩

namespace ClassSchema

/-- Binds a declared attribute for a class. -/
def bindAttribute (className : String) (d : AttributeDeclaration) : Logged Attribute := do
  let (bound, warnings) ← MonadExcept.ofExcept do (← Attribute.ofDeclaration d).bind className
  modify (· ++ warnings)
  pure bound

/-- Loads a visible class. -/
def load (h : Hierarchy) (name : String) : Logged ClassSchema := do
  let attributes ← (← MonadExcept.ofExcept (h.attributes name true)).mapM (bindAttribute name)
  let relations ← MonadExcept.ofExcept (h.relations name true)
  pure
    { name
      attributes := .ofList (attributes.map fun a => (a.name, a))
      relations := .ofList (relations.map fun d => (d.name, .ofDeclaration d))
      superclasses := ← MonadExcept.ofExcept (h.superclasses name false)
      ancestors := ← MonadExcept.ofExcept (h.superclasses name true)
      subclasses := ← MonadExcept.ofExcept (h.subclasses name false)
      descendants := ← MonadExcept.ofExcept (h.subclasses name true) }

def attribute? (s : ClassSchema) (field : String) : Option Attribute := s.attributes.get? field

def relation? (s : ClassSchema) (field : String) : Option Relation := s.relations.get? field

def hasField (s : ClassSchema) (field : String) : Bool :=
  s.attributes.contains field || s.relations.contains field

/-- Whether a name is that of the class or of an ancestor. -/
def isA (s : ClassSchema) (className : String) : Bool :=
  s.name == className || s.ancestors.contains className

/-- The number of direct superclasses. -/
def depth (s : ClassSchema) : Nat := s.superclasses.length

/-! ### Descriptions -/

/-- A description behind a mark, if there is one. -/
def remark (description : String) : String :=
  if description.isEmpty then "" else "  # " ++ description

def describeAttribute (a : Attribute) : String :=
  "    " ++ a.name ++ ": " ++ a.type.tag ++ " [" ++ a.cardinality ++ "]"
    ++ (if a.rangeSource.isSome then " range " ++ a.range.render else "")
    ++ (match a.initial? with | some v => " = " ++ v.render | none => "")
    ++ remark a.description ++ "\n"

def describeRelation (r : Relation) : String :=
  "    " ++ r.name ++ ": " ++ r.target ++ " [" ++ r.cardinality ++ "]"
    ++ (if r.aggregation then " aggregation" else "") ++ remark r.description ++ "\n"

/-- A titled block of lines, left out if there are none. -/
def describeFields (title : String) (fields : List String) : String :=
  if fields.isEmpty then "" else "  " ++ title ++ ":\n" ++ String.join fields

/-- A description of the class and its fields to read. -/
def describe (s : ClassSchema) : String :=
  "class " ++ s.name
    ++ (if s.superclasses.isEmpty then "" else " : " ++ String.intercalate ", " s.superclasses) ++ "\n"
    ++ describeFields "attributes" (s.attributes.values.map describeAttribute)
    ++ describeFields "relations" (s.relations.values.map describeRelation)

end ClassSchema

end RecordGraph
