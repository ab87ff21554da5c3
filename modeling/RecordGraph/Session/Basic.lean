import RecordGraph.Object.Operations
import RecordGraph.Proxy.Operations
import RecordGraph.Registry.Refresh
import RecordGraph.Session.Cache

/-!
Sessions over a record store.  A session keeps at most one live object for a class and id, and knows
the database in which it makes new records.
-/

namespace RecordGraph

/-- What persisting does when a field cannot be written. -/
inductive Policy
  /-- Reports the failure and goes on with the next field. -/
  | permissive
  /-- Stops and fails. -/
  | pedantic
deriving DecidableEq, Repr

/-- A session. -/
structure Session where
  registry : RegistryId
  cache : SessionCache := {}
  policy : Policy := .permissive
  /-- The database that new records go to. -/
  active : Option String := none
deriving Repr

/-- A session and the world in which it works. -/
structure Workspace where
  session : Session
  world : World
deriving Repr

/-- A computation of a session that may fail. -/
abbrev SessionM := ExceptT Error (StateM Workspace)

namespace Workspace

/-- The cached object of a class and id. -/
def cached? (s : Workspace) (className id : String) : Option ObjectId :=
  s.session.cache.get? className id

/-- The classes under which an object is cached. -/
def classesOf (s : Workspace) (o : ObjectId) : List String := (s.world.object o).type.names

/-- Caches an object under its id. -/
def cache (s : Workspace) (o : ObjectId) : Workspace :=
  { s with session.cache := s.session.cache.insert (s.classesOf o) (s.world.object o).id o }

/-- Drops an object from the cache, where it is there under the id. -/
def evict (s : Workspace) (o : ObjectId) (id : String) : Workspace :=
  { s with session.cache := s.session.cache.evict (s.classesOf o) id o }

end Workspace

namespace Session

variable {α : Type}

/-- Runs an action on the world. -/
def act (a : Action α) : SessionM α := fun s =>
  let (result, world) := a s.world
  (result, { s with world })

/-- Runs an operation of the store. -/
def onStore (m : StoreM α) : SessionM α := act (Action.onStore m)

/-- Asks the session and its world. -/
def ask (f : Workspace → Except Error α) : SessionM α := do
  MonadExcept.ofExcept (f (← get))

/-- Asks the store. -/
def askStore (f : Store → Except Error α) : SessionM α := ask fun s => f s.world.store

/-- The error of naming a database that is not loaded. -/
def notLoaded (name : String) : Error := .adhoc ("database `" ++ name ++ "` is not loaded")

/-- A given database, or else the active one. -/
def database (name : Option String) : SessionM String := do
  match name.or (← get).session.active with
  | some name => pure name
  | none => throw (.adhoc "no active database")

/-- A proxy for a record. -/
def proxyFor (r : RecordRef) : SessionM ProxyId := do
  act (Action.newProxy (← get).session.registry r)

/-- The record of a class or a subclass with an id. -/
def record (className id : String) : SessionM ProxyId := do
  proxyFor (← askStore fun store => store.getRecord className id)

/-- The records of a class and its subclasses. -/
def records (className : String) : SessionM (List ProxyId) := do
  (← askStore fun store => store.records className).mapM proxyFor

/-- Makes a record in a database, by default the active one. -/
def createRecord (className id : String) (place : Option String) : SessionM ProxyId := do
  let place ← database place
  proxyFor (← onStore (Store.createRecord place className id))

/-- Loads classes that the store has come to show, and derives their types. -/
def refresh : SessionM (List ClassType) := do
  let r := (← get).session.registry
  let added ← act r.refresh
  modify fun s =>
    { s with session.cache :=
        (s.world.registry r).types.keys.foldl SessionCache.init s.session.cache }
  pure added

end Session

end RecordGraph
