import RecordGraph.Session.Basic

/-!
Hydration: building the objects of records and of all that their relations lead to.  An object is
cached before its fields are read, so that cycles end where they began; an object that is cached
already is taken as it is.
-/

namespace RecordGraph

namespace Session

/-- A record whose object was made and has still to be loaded. -/
structure Pending where
  proxy : ProxyId
  object : ObjectId
deriving DecidableEq, Repr

/-- Makes and caches the object of a record. -/
def instantiate (p : ProxyId) : SessionM ObjectId := do
  let s ← get
  let record := s.world.recordOf p
  let type ← MonadExcept.ofExcept ((s.world.registry s.session.registry).type record.className)
  let o ← act (Action.newObject type record.id)
  modify fun s => s.cache o
  pure o

/-- The object of a record, and whether it was made just now. -/
def objectOf (p : ProxyId) : SessionM (ObjectId × Bool) := do
  let s ← get
  let record := s.world.recordOf p
  match s.cached? record.className record.id with
  | some o => pure (o, false)
  | none => do pure (← instantiate p, true)

/-- Puts what was read from the store into a field. -/
def loadField (o : ObjectId) (name : String) (f : Field) : SessionM Unit :=
  modify fun s =>
    { s with world := s.world.changeObject o fun object => object.load name f }

/-- Loads an attribute of a record into its object. -/
def loadAttribute (next : Pending) (name : String) : SessionM Unit := do
  loadField next.object name (.value (← act (next.proxy.getAttribute name)))

/-- Loads a relation of a record into its object, and gives back what is pending because of it. -/
def loadRelation (next : Pending) (r : Relation) : SessionM (List Pending) := do
  let related ← act (next.proxy.getRelation r.name)
  let found ← related.targets.mapM fun p => do pure (p, ← objectOf p)
  let objects := found.map fun (_, o, _) => o
  loadField next.object r.name
    (if r.multivalue then .objects objects else .ofTarget? objects.getLast?)
  pure (found.filterMap fun (p, o, new) => if new then some ⟨p, o⟩ else none)

/-- Loads the fields of a record into its object, and gives back what is pending because of them. -/
def loadFields (next : Pending) : SessionM (List Pending) := do
  let schema := ((← get).world.proxy next.proxy).schema
  schema.attributes.keys.forM (loadAttribute next)
  pure (← schema.relations.values.mapM (loadRelation next)).flatten

/-- Loads what is pending, what was found last first.  The number bounds the objects loaded. -/
def loadPending : Nat → List Pending → SessionM Unit
  | 0, _ => pure ()
  | _ + 1, [] => pure ()
  | steps + 1, next :: pending => do
    let found ← loadFields next
    loadPending steps (found.reverse ++ pending)

/-- The object of a record.  Every pending object stands for a stored record of its own, which bounds
the loading. -/
def hydrate (p : ProxyId) : SessionM ObjectId := do
  let (o, new) ← objectOf p
  if new then loadPending ((← get).world.store.recordCount + 1) [⟨p, o⟩]
  pure o

/-- The object of a class or a subclass with an id. -/
def getObject (className id : String) : SessionM ObjectId := do
  match (← get).cached? className id with
  | some o => pure o
  | none => do hydrate (← record className id)

/-- Every object of a class and its subclasses. -/
def getAll (className : String) : SessionM (List ObjectId) := do
  (← records className).mapM hydrate

/-- Adds the objects of a class whose names are new. -/
def materializeClass (found : OrderedMap String ObjectId) (className : String) :
    SessionM (OrderedMap String ObjectId) := do
  let objects ← getAll className
  let w := (← get).world
  pure (objects.foldl (fun m o => m.insertNew (w.nameOf o) o) found)

/-- Every cached object, and those of all records of classes with a type, each name once. -/
def materializeAll : SessionM (List ObjectId) := do
  let s ← get
  let cached := (s.session.cache.objects s.world.nameOf).map fun o => (s.world.nameOf o, o)
  let types := (s.world.registry s.session.registry).types.keys
  pure (← types.foldlM materializeClass (OrderedMap.ofList cached)).values

end Session

end RecordGraph
