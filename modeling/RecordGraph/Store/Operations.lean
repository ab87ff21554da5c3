import RecordGraph.Store.Basic

/-!
Operations that change a record store.  An operation runs on the state of the store and may fail;
what it changed before it failed stays, so that an operation is atomic because of the order of its
checks.
-/

namespace RecordGraph

/-- A computation on a store that may fail. -/
abbrev StoreM := ExceptT Error (StateM Store)

namespace Store

/-- Asks the store. -/
def ask {α : Type} (f : Store → Except Error α) : StoreM α := do
  MonadExcept.ofExcept (f (← get))

/-- Changes one database. -/
def changeDatabase (name : String) (f : Database → Database) : StoreM Unit := do
  let _ ← ask fun s => s.database name
  modify fun s => { s with databases := s.databases.modify name f }

/-! ### Schemas and databases -/

/-- Registers a schema document, in the place of one with the same name. -/
def addSchema (name : String) (d : SchemaDocument) : StoreM Unit :=
  modify fun s => { s with schemas := s.schemas.insert name d }

/-- Registers a schema document by its text. -/
def addSchemaText (name text : String) : StoreM Unit := do
  addSchema name (← MonadExcept.ofExcept (SchemaDocument.parse text))

/-- Makes a database without loading it. -/
def addDatabase (name : String) (includes : List String) : StoreM Unit := do
  if (← get).databases.contains name then
    throw (.alreadyExists ("database `" ++ name ++ "`"))
  includes.forM fun i => ask fun s => s.checkInclude i
  modify fun s => { s with databases := s.databases.insert name { includes } }

/-- Makes a database, and what it includes, visible. -/
def load (name : String) : StoreM Unit := do
  let _ ← ask fun s => s.database name
  modify fun s => if s.loaded.contains name then s else { s with loaded := s.loaded ++ [name] }

/-- Makes a database and loads it. -/
def createDatabase (name : String) (includes : List String) : StoreM Unit := do
  addDatabase name includes
  modify fun s => { s with loaded := s.loaded ++ [name] }

def setReadOnly (name : String) (readOnly : Bool) : StoreM Unit :=
  changeDatabase name fun d => { d with readOnly }

/-- Lets a database include a name, once. -/
def addInclude (name included : String) : StoreM Unit := do
  ask fun s => s.checkInclude included
  changeDatabase name fun d =>
    if d.includes.contains included then d else { d with includes := d.includes ++ [included] }

def removeInclude (name included : String) : StoreM Unit := do
  let d ← ask fun s => s.database name
  if d.includes.contains included then
    changeDatabase name fun d => { d with includes := d.includes.erase included }
  else
    throw (.adhoc ("database `" ++ name ++ "` does not include `" ++ included ++ "`"))

/-- Adds a comment to every loaded database that may be written to. -/
def commit (comment : String) : StoreM Unit := do
  (← get).loaded.forM fun name =>
    changeDatabase name fun d =>
      if d.readOnly then d else { d with comments := d.comments ++ [comment] }

/-! ### Records -/

/-- Makes a record without fields in a database. -/
def createRecord (place className id : String) : StoreM RecordRef := do
  ask fun s => s.checkWritable place
  let _ ← ask fun s => s.hierarchy.declaration className
  match (← get).conflict className id with
  | some existing => throw (.alreadyExists existing.fullName)
  | none =>
    let r : RecordRef := ⟨className, id⟩
    changeDatabase place fun d => { d with records := d.records.insert r .empty }
    pure r

/-- Removes a record that no other visible record points to. -/
def destroyRecord (r : RecordRef) : StoreM Unit := do
  let place ← ask fun s => s.locateVisible r
  ask fun s => s.checkWritable place
  let s ← get
  match ((s.databasesIn s.visible).flatMap fun d => d.referrers r).head? with
  | some referrer =>
    throw (.constraintViolation (r.fullName ++ " is referenced by " ++ referrer.fullName))
  | none => changeDatabase place fun d => { d with records := d.records.erase r }

/-- Gives a record another id, and points every reference in every database at it. -/
def renameRecord (r : RecordRef) (newId : String) : StoreM RecordRef := do
  let place ← ask fun s => s.locateVisible r
  ask fun s => s.checkWritable place
  match (← get).conflict r.className newId with
  | some existing => throw (.alreadyExists existing.fullName)
  | none =>
    let renamed : RecordRef := ⟨r.className, newId⟩
    changeDatabase place fun d =>
      { d with records := (d.records.erase r).insert renamed ((d.records.get? r).getD .empty) }
    modify fun s => { s with
      databases := s.databases.mapValues fun _ d => d.retarget r renamed
      renames := s.renames + 1 }
    pure renamed

/-- Writes a field; null removes it.  Through an object accessor every record that the value points
to must be in a database that the record's own one includes. -/
def write (r : RecordRef) (name : String) (accessor : Accessor) (v : Value) : StoreM Unit := do
  let place ← ask fun s => s.locateVisible r
  ask fun s => s.checkWritable place
  ask fun s => s.checkField r name
  if accessor.isObject then
    let s ← get
    let scope := s.closure [place]
    match v.targets.find? fun t => (s.locate scope t).isNone with
    | some t =>
      throw (.constraintViolation
        (t.fullName ++ " is not reachable from database `" ++ place ++ "`"))
    | none => pure ()
  changeDatabase place fun d =>
    let fields := (d.records.get? r).getD .empty
    let fields := if v.isNull then fields.erase name else fields.insert name v
    { d with records := d.records.insert r fields }

end Store

end RecordGraph
