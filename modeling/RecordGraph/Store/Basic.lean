import RecordGraph.Schema.Hierarchy
import RecordGraph.Store.Database

/-!
Record stores: named schema documents and named databases.  What the loaded databases include,
directly or through others, is visible; all reading goes by what is visible.
-/

namespace RecordGraph

/-- A record store. -/
structure Store where
  schemas : OrderedMap String SchemaDocument := .empty
  databases : OrderedMap String Database := .empty
  /-- The databases that were loaded, in that order. -/
  loaded : List String := []
  /-- How many records were renamed. -/
  renames : Nat := 0
deriving Repr

namespace Store

/-! ### Databases -/

def database (s : Store) (name : String) : Except Error Database :=
  match s.databases.get? name with
  | some d => .ok d
  | none => .error (.adhoc ("unknown database `" ++ name ++ "`"))

/-- The graph of inclusions. -/
def includeGraph (s : Store) : NameGraph := s.databases.mapValues fun _ d => d.includes

/-- The names that databases include, directly or through others, the databases among them. -/
def closure (s : Store) (roots : List String) : List String := s.includeGraph.reach roots

/-- The names that the loaded databases include. -/
def visible (s : Store) : List String := s.closure s.loaded

/-- The databases of a scope. -/
def databasesIn (s : Store) (scope : List String) : List Database :=
  scope.filterMap s.databases.get?

/-- The first database of a scope that holds exactly a record. -/
def locate (s : Store) (scope : List String) (r : RecordRef) : Option String :=
  scope.find? fun name =>
    match s.databases.get? name with
    | some d => d.holds r
    | none => false

/-- The visible database that holds exactly a record. -/
def location (s : Store) (r : RecordRef) : Option String := s.locate s.visible r

def locateVisible (s : Store) (r : RecordRef) : Except Error String :=
  match s.location r with
  | some name => .ok name
  | none => .error (.recordNotFound r.fullName)

def comments (s : Store) (name : String) : Except Error (List String) := do
  pure (← s.database name).comments

def includesOf (s : Store) (name : String) : Except Error (List String) := do
  pure (← s.database name).includes

/-- Checks that a database exists and may be written to. -/
def checkWritable (s : Store) (name : String) : Except Error Unit := do
  if (← s.database name).readOnly then
    .error (.constraintViolation ("database `" ++ name ++ "` is read-only"))

/-- Checks that a name can be included. -/
def checkInclude (s : Store) (name : String) : Except Error Unit :=
  if s.databases.contains name || s.schemas.contains name then .ok ()
  else .error (.adhoc ("cannot include `" ++ name ++ "`: no such database or schema"))

/-- How many records all databases hold together. -/
def recordCount (s : Store) : Nat := (s.databases.values.map fun d => d.records.size).foldr (· + ·) 0

/-! ### Classes -/

/-- The visible classes. -/
def hierarchy (s : Store) : Hierarchy :=
  .ofDeclarations ((s.visible.filterMap s.schemas.get?).flatMap SchemaDocument.classes)

def classes (s : Store) : List String := s.hierarchy.names

/-! ### Records -/

/-- The first visible record with an id, among the classes that are accepted. -/
def lookup (s : Store) (id : String) (accept : String → Bool) : Option RecordRef :=
  let scope := s.visible
  ((s.classes.filter accept).map fun c => RecordRef.mk c id).find? fun r => (s.locate scope r).isSome

/-- A visible record with an id whose class is the given one or derives from it. -/
def find (s : Store) (className id : String) : Option RecordRef :=
  let h := s.hierarchy
  s.lookup id fun c => h.isA c className

/-- A visible record with an id in the same line of inheritance as a class. -/
def conflict (s : Store) (className id : String) : Option RecordRef :=
  let h := s.hierarchy
  s.lookup id fun c => h.isA c className || h.isA className c

def getRecord (s : Store) (className id : String) : Except Error RecordRef :=
  match s.find className id with
  | some r => .ok r
  | none => .error (.recordNotFound (fullName className id))

def testRecord (s : Store) (className id : String) : Bool := (s.find className id).isSome

/-- The visible records of a class and its descendants, each once. -/
def records (s : Store) (className : String) : Except Error (List RecordRef) := do
  let h := s.hierarchy
  let _ ← h.declaration className
  let found := (s.databasesIn s.visible).flatMap fun d =>
    d.records.keys.filter fun r => h.isA r.className className
  pure found.eraseDups

/-- Checks that the class of a record has a field. -/
def checkField (s : Store) (r : RecordRef) (name : String) : Except Error Unit := do
  if !(← s.hierarchy.hasField r.className name) then
    .error (.unknownField r.className name)

/-- Reads a field.  A field without a value is null, or the empty list.  Through an object accessor
every record that the value points to must be visible. -/
def read (s : Store) (r : RecordRef) (name : String) (accessor : Accessor) : Except Error Value := do
  let place ← s.locateVisible r
  s.checkField r name
  let d ← s.database place
  let stored := (d.records.get? r).bind fun fields => fields.get? name
  let v := stored.getD (if accessor.multi then .list [] else .null)
  if accessor.isObject then
    let scope := s.visible
    match v.targets.find? fun t => (s.locate scope t).isNone with
    | some missing => .error (.recordNotFound missing.fullName)
    | none => pure v
  else pure v

end Store

end RecordGraph
