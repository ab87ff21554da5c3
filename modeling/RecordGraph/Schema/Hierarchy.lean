import RecordGraph.Reach
import RecordGraph.Schema.Document

/-!
The classes that are visible at one time, with what they inherit.
-/

namespace RecordGraph

/-- Visible classes by their names. -/
structure Hierarchy where
  classes : OrderedMap String ClassDeclaration
deriving DecidableEq, Repr

namespace Hierarchy

/-- Of several declarations of a class the last one counts, in the place of the first. -/
def ofDeclarations (ds : List ClassDeclaration) : Hierarchy :=
  ⟨OrderedMap.ofList (ds.map fun d => (d.name, d))⟩

def names (h : Hierarchy) : List String := h.classes.keys

def declarations (h : Hierarchy) : List ClassDeclaration := h.classes.values

/-- The declaration of a class. -/
def declaration (h : Hierarchy) (name : String) : Except Error ClassDeclaration :=
  match h.classes.get? name with
  | some d => .ok d
  | none => .error (.invalidSchema ("unknown class `" ++ name ++ "`"))

/-- The graph of direct superclasses. -/
def superGraph (h : Hierarchy) : NameGraph := h.classes.mapValues fun _ d => d.superclasses

/-- Every ancestor of a class, nearest first. -/
def ancestors (h : Hierarchy) (name : String) : Except Error (List String) := do
  let d ← h.declaration name
  pure (h.superGraph.reach d.superclasses)

/-- Whether a class is another one or derives from it. -/
def isA (h : Hierarchy) (name base : String) : Bool :=
  name == base || match h.ancestors name with
    | .ok as => as.contains base
    | .error _ => false

/-- A class with its ancestors, most basic first. -/
def lineage (h : Hierarchy) (name : String) : Except Error (List ClassDeclaration) := do
  let own ← h.declaration name
  let above ← (← h.ancestors name).mapM h.declaration
  pure (own :: above).reverse

/-- Whether a class declares a field, or inherits it. -/
def hasField (h : Hierarchy) (name field : String) : Except Error Bool := do
  let line ← h.lineage name
  pure (line.any fun d =>
    d.attributes.any (fun a => a.name == field) || d.relations.any (fun r => r.name == field))

/-- The classes whose own fields are asked for: a class alone, or its lineage. -/
def scope (h : Hierarchy) (name : String) (all : Bool) : Except Error (List ClassDeclaration) :=
  if all then h.lineage name else do pure [← h.declaration name]

/-- The attributes of a class.  Of several with one name the most basic one counts. -/
def attributes (h : Hierarchy) (name : String) (all : Bool) :
    Except Error (List AttributeDeclaration) := do
  let line ← h.scope name all
  pure (OrderedMap.distinctBy AttributeDeclaration.name (line.flatMap ClassDeclaration.attributes))

/-- The relations of a class.  Of several with one name the most basic one counts. -/
def relations (h : Hierarchy) (name : String) (all : Bool) :
    Except Error (List RelationDeclaration) := do
  let line ← h.scope name all
  pure (OrderedMap.distinctBy RelationDeclaration.name (line.flatMap ClassDeclaration.relations))

/-- The direct superclasses, or every ancestor. -/
def superclasses (h : Hierarchy) (name : String) (all : Bool) : Except Error (List String) :=
  if all then h.ancestors name else do pure (← h.declaration name).superclasses

/-- The direct subclasses, or every descendant. -/
def subclasses (h : Hierarchy) (name : String) (all : Bool) : Except Error (List String) := do
  let _ ← h.declaration name
  let below (d : ClassDeclaration) : Bool :=
    if all then d.name != name && h.isA d.name name else d.superclasses.contains name
  pure ((h.declarations.filter below).map ClassDeclaration.name)

end Hierarchy

end RecordGraph
