import RecordGraph.Schema.ClassSchema

/-!
Types derived from classes.  A type holds the types of its direct superclasses, so that the ancestry
of a type stays what it was when the type was derived, whatever becomes of the classes.
-/

namespace RecordGraph

/-- Names a registry. -/
structure RegistryId where
  index : Nat
deriving DecidableEq, Repr

instance : Inhabited RegistryId := ⟨⟨0⟩⟩

/-- A type derived from a class.  A registry never derives two types for one name, so that the name
and the registry tell a type from all others. -/
structure ClassType where
  schema : ClassSchema
  /-- The types of the direct superclasses. -/
  bases : List ClassType
  /-- The registry that derived the type. -/
  home : RegistryId
deriving Repr

instance : Inhabited ClassType := ⟨⟨default, [], default⟩⟩

namespace ClassType

def name (t : ClassType) : String := t.schema.name

/-- Whether two types are the same one. -/
def same (t u : ClassType) : Bool := t.home == u.home && t.name == u.name

/-- Whether a name is that of the type or of an ancestor. -/
def isA (className : String) : ClassType → Bool
  | ⟨schema, bases, _⟩ => schema.name == className || go bases
where
  go : List ClassType → Bool
    | [] => false
    | t :: ts => t.isA className || go ts

theorem isA_go_iff (className : String) (ts : List ClassType) :
    isA.go className ts = true ↔ ∃ t ∈ ts, isA className t = true := by
  induction ts with
  | nil => simp [isA.go]
  | cons t ts ih => simp [isA.go, ih]

theorem isA_iff (className : String) (t : ClassType) :
    isA className t = true ↔ t.name = className ∨ ∃ b ∈ t.bases, isA className b = true := by
  obtain ⟨schema, bases, home⟩ := t
  simp [isA, isA_go_iff, name]

/-- How many types an ancestry lists, counting one for every way to it. -/
def weight : ClassType → Nat
  | ⟨_, bases, _⟩ => 1 + go bases
where
  go : List ClassType → Nat
    | [] => 0
    | t :: ts => t.weight + go ts

theorem weight_go_append (ts us : List ClassType) :
    weight.go (ts ++ us) = weight.go ts + weight.go us := by
  induction ts with
  | nil => simp [weight.go]
  | cons t ts ih => simp only [List.cons_append, weight.go, ih]; omega

/-- The names of waiting types and of their ancestors, breadth first and each once. -/
def collectNames : List ClassType → List String → List String
  | [], seen => seen
  | t :: waiting, seen =>
    if t.name ∈ seen then collectNames waiting seen
    else collectNames (waiting ++ t.bases) (seen ++ [t.name])
termination_by waiting => weight.go waiting
decreasing_by
  · obtain ⟨schema, bases, home⟩ := t
    simp only [weight.go, weight]
    omega
  · obtain ⟨schema, bases, home⟩ := t
    simp only [weight.go, weight, weight_go_append]
    omega

/-- The name of the type and those of its ancestors. -/
def names (t : ClassType) : List String := collectNames [t] []

end ClassType

end RecordGraph
