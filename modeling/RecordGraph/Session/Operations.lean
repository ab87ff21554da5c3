import RecordGraph.Session.Hydrate
import RecordGraph.Session.Persist

/-!
Opening sessions, and managing the databases of the store through them.
-/

namespace RecordGraph

namespace Session

/-- What a session is opened with. -/
structure Options where
  /-- A registry to share; a new one if there is none. -/
  registry : Option RegistryId := none
  policy : Policy := .permissive
  /-- The active database; the one loaded first if there is none. -/
  active : Option String := none
deriving Repr

/-- Opens a session. -/
def openWith (options : Options) : Action Session := do
  let loaded := (← get).store.loaded
  let active ← match options.active with
    | some name => if loaded.contains name then pure (some name) else throw (notLoaded name)
    | none => pure loaded.head?
  let registry ← match options.registry with
    | some r => pure r
    | none => Action.newRegistry
  let session : Session := { registry, policy := options.policy, active }
  fun w =>
    let (result, s) := refresh ⟨session, w⟩
    (result.map fun _ => s.session, s.world)

/-- Makes a new object of a class.  Nothing is written until it is added or updated. -/
def newObject (className id : String) : SessionM ObjectId := do
  let type ← ask fun s => (s.world.registry s.session.registry).type className
  act (Action.newObject type id)

/-- Makes a database and makes it the active one. -/
def createDatabase (name : String) (includes : List String) : SessionM Unit := do
  onStore (Store.createDatabase name includes)
  modify fun s => { s with session.active := some name }
  let _ ← refresh

/-- Makes a loaded database the active one. -/
def setActive (name : String) : SessionM Unit := do
  if (← get).world.store.loaded.contains name then
    modify fun s => { s with session.active := some name }
  else throw (notLoaded name)

/-- What a database includes. -/
def includes (place : Option String) : SessionM (List String) := do
  let place ← database place
  askStore fun store => store.includesOf place

/-- Lets a database include a name. -/
def addInclude (included : String) (place : Option String) : SessionM Unit := do
  onStore (Store.addInclude (← database place) included)
  let _ ← refresh

/-- Lets a database include a name no longer. -/
def removeInclude (included : String) (place : Option String) : SessionM Unit := do
  onStore (Store.removeInclude (← database place) included)

/-- Adds a comment to every loaded database that may be written to. -/
def commit (comment : String) : SessionM Unit := onStore (Store.commit comment)

end Session

end RecordGraph
