import RecordGraph.Object.Field
import RecordGraph.Registry.ClassType

/-!
Registries: the schemas of the classes seen so far, the types derived from them, and the objects
written since the last reset.  A registry only grows, and what it gave out for a name it gives out
ever after.
-/

namespace RecordGraph

/-- A registry. -/
structure Registry where
  schemas : OrderedMap String ClassSchema := .empty
  /-- The types by the names of their classes, in the order of derivation. -/
  types : OrderedMap String ClassType := .empty
  /-- The names of the classes that types were made for. -/
  known : List String := []
  /-- The objects written since the last reset, by full name.  Of equal objects the one written
  first is kept. -/
  updated : OrderedMap String ObjectId := .empty
deriving Repr

instance : Inhabited Registry := ⟨{}⟩

/-- A computation on a registry that may fail. -/
abbrev RegistryM := ExceptT Error (StateM Registry)

namespace Registry

/-- Whether the name of a class was noted as that of a type. -/
def isKnown (r : Registry) (className : String) : Bool := r.known.contains className

/-- Adds a type, and notes its name. -/
def insertType (r : Registry) (t : ClassType) : Registry :=
  { r with
    types := r.types.insert t.name t
    known := if r.known.contains t.name then r.known else r.known ++ [t.name] }

/-- The schema of a class. -/
def schema (r : Registry) (className : String) : Except Error ClassSchema :=
  match r.schemas.get? className with
  | some s => .ok s
  | none => .error (.invalidSchema ("unknown class `" ++ className ++ "`"))

/-- The type of a class. -/
def type (r : Registry) (className : String) : Except Error ClassType :=
  match r.types.get? className with
  | some t => .ok t
  | none => .error (.invalidSchema ("no type derived for class `" ++ className ++ "`"))

/-! ### Derivation -/

/-- The type of a class whose bases were all derived. -/
def derived? (home : RegistryId) (r : Registry) (s : ClassSchema) : Option ClassType := do
  pure { schema := s, bases := ← s.superclasses.mapM r.types.get?, home }

/-- Derives the types of waiting classes.  A class that has to wait for a base goes to the end, and
once every waiting class did so in turn the rest can never be derived.  The number counts the classes
put back since the last one that was done; the rest is given back with the registry. -/
def deriveWaiting (home : RegistryId) (r : Registry) :
    List ClassSchema → Nat → Registry × List ClassSchema
  | [], _ => (r, [])
  | s :: waiting, stalled =>
    if r.types.contains s.name then deriveWaiting home r waiting 0
    else match r.derived? home s with
      | some t => deriveWaiting home (r.insertType t) waiting 0
      | none =>
        if stalled + 1 ≥ waiting.length + 1 then (r, waiting ++ [s])
        else deriveWaiting home r (waiting ++ [s]) (stalled + 1)
termination_by waiting stalled => (waiting.length, waiting.length - stalled)
decreasing_by
  · simp_wf; omega
  · simp_wf; omega
  · simp_wf; omega

/-- Derives the types of classes, those with fewer ancestors first, and gives them back.  Classes that
have a type already keep it. -/
def derive (home : RegistryId) (classNames : List String) : RegistryM (List ClassType) := do
  let r ← get
  let schemas ← MonadExcept.ofExcept (classNames.mapM r.schema)
  let byAncestors := schemas.mergeSort fun s t => s.ancestors.length ≤ t.ancestors.length
  let (r, blocked) := r.deriveWaiting home byAncestors 0
  set r
  if blocked.isEmpty then MonadExcept.ofExcept (classNames.mapM r.type)
  else throw (.invalidSchema ("cannot derive types for "
    ++ String.intercalate ", " (blocked.map ClassSchema.name) ++ ": superclasses are missing"))

/-- Derives the types of all classes that have a schema and no type. -/
def deriveMissing (home : RegistryId) : RegistryM (List ClassType) := do
  let r ← get
  derive home (r.schemas.keys.filter fun name => !r.types.contains name)

/-- Makes a type with given bases for a class, unless the class has one already. -/
def register (home : RegistryId) (className : String) (bases : List ClassType) :
    RegistryM ClassType := do
  let r ← get
  match r.types.get? className with
  | some t => pure t
  | none =>
    let t : ClassType := { schema := ← MonadExcept.ofExcept (r.schema className), bases, home }
    set (r.insertType t)
    pure t

/-! ### Updated objects -/

/-- Notes that an object was written to. -/
def noteUpdated (r : Registry) (fullName : String) (o : ObjectId) : Registry :=
  { r with updated := r.updated.insertNew fullName o }

/-- Follows an object that got another name. -/
def noteRenamed (r : Registry) (o : ObjectId) (oldName newName : String) : Registry :=
  if r.updated.get? oldName = some o then
    { r with updated := (r.updated.erase oldName).insertNew newName o }
  else r

end Registry

end RecordGraph
