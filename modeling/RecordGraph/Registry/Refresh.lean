import RecordGraph.World

/-!
Refreshing registries: picking up the classes that a store has come to show.  A class that cannot be
loaded stops the refresh, and the classes before it stay loaded.
-/

namespace RecordGraph

namespace RegistryId

/-- Loads the schema of a visible class. -/
def loadSchema (r : RegistryId) (className : String) : Action Unit := do
  let h := (← get).store.hierarchy
  let schema ← Action.logged (ClassSchema.load h className)
  modify fun w => w.changeRegistry r fun reg =>
    { reg with schemas := reg.schemas.insert className schema }

/-- Loads the schemas of the visible classes that have none yet, and gives back their names. -/
def refreshSchemas (r : RegistryId) : Action (List String) := do
  let w ← get
  let added := w.store.classes.filter fun name => !(w.registry r).schemas.contains name
  added.forM r.loadSchema
  pure added

/-- Loads the schemas of new classes and derives their types, which it gives back. -/
def refresh (r : RegistryId) : Action (List ClassType) := do
  let _ ← r.refreshSchemas
  Action.onRegistry r (Registry.deriveMissing r)

/-- Derives the types of classes. -/
def derive (r : RegistryId) (classNames : List String) : Action (List ClassType) :=
  Action.onRegistry r (Registry.derive r classNames)

/-- Makes a type with given bases for a class. -/
def register (r : RegistryId) (className : String) (bases : List ClassType) : Action ClassType :=
  Action.onRegistry r (Registry.register r className bases)

/-- Forgets which objects were written to. -/
def resetUpdated (r : RegistryId) : Action Unit :=
  modify fun w => w.changeRegistry r fun reg => { reg with updated := .empty }

end RegistryId

end RecordGraph
