import RecordGraph.Object.Find
import RecordGraph.Session.Basic

/-!
Persisting: writing objects to the records of a store.  All records exist before any field is
written, so that relations may lead to any of the objects.
-/

namespace RecordGraph

namespace Session

/-- How objects are persisted. -/
structure Persistence where
  policy : Policy
  /-- Whether all that the object leads to is persisted as well. -/
  recursive : Bool
  /-- Whether records that exist already are left alone. -/
  createOnly : Bool
deriving DecidableEq, Repr

/-- The record of an object that is being persisted. -/
structure Target where
  proxy : ProxyId
  /-- Whether the record was made just now. -/
  created : Bool
deriving DecidableEq, Repr

/-- The records of the objects that are being persisted, by full name. -/
abbrev Targets := OrderedMap String Target

/-- Renames the record of an object that was renamed. -/
def applyRename (o : ObjectId) : SessionM Unit := do
  let s ← get
  let object := s.world.object o
  match object.oldId with
  | none => pure ()
  | some oldId =>
    if oldId != object.id && s.world.store.testRecord object.className oldId then
      let record ← askStore fun store => store.getRecord object.className oldId
      let _ ← onStore (Store.renameRecord record object.id)
    act o.clearRename
    modify fun s => s.evict o oldId

/-- The record of an object, made if there is none. -/
def targetFor (o : ObjectId) : SessionM Target := do
  let s ← get
  let object := s.world.object o
  if s.world.store.testRecord object.className object.id then
    pure { proxy := ← record object.className object.id, created := false }
  else
    pure { proxy := ← createRecord object.className object.id none, created := true }

/-- Makes the record of an object known to the others. -/
def prepare (targets : Targets) (o : ObjectId) : SessionM Targets := do
  applyRename o
  let name := (← get).world.nameOf o
  if targets.contains name then pure targets
  else do pure (targets.insert name (← targetFor o))

/-- Deals with a field that cannot be written. -/
def skipOrFail (policy : Policy) (o : ObjectId) (field : String) (e : Error) : SessionM Unit := do
  let object := (← get).world.object o
  match policy with
  | .permissive =>
    modify fun s =>
      { s with world :=
          s.world.warn [.fieldSkipped object.className object.id field e.message] }
  | .pedantic =>
    throw (e.context (.adhoc ("cannot write `" ++ field ++ "` of " ++ object.fullName)))

/-- Writes an attribute of an object to its record. -/
def writeAttribute (policy : Policy) (o : ObjectId) (p : ProxyId) (name : String) :
    SessionM Unit := do
  match ← act (o.get name) with
  | .value v =>
    tryCatch (do let _ ← act (p.setAttribute name v)) (skipOrFail policy o name)
  | _ => pure ()

/-- The record that a relation to an object is written as. -/
def relatedProxy (targets : Targets) (o : ObjectId) : SessionM ProxyId := do
  let w := (← get).world
  match targets.get? (w.nameOf o) with
  | some t => pure t.proxy
  | none =>
    let object := w.object o
    record object.className object.id

/-- Writes a relation of an object to its record.  A target without a record is a failure under every
policy. -/
def writeRelation (policy : Policy) (targets : Targets) (o : ObjectId) (p : ProxyId) (r : Relation) :
    SessionM Unit := do
  let proxies ← (← act (o.get r.name)).targets.mapM (relatedProxy targets)
  let related : Related := if r.multivalue then .many proxies else .one proxies.head?
  tryCatch (act (p.setRelation r.name related)) (skipOrFail policy o r.name)

/-- Writes the fields of an object to its record. -/
def writeFields (policy : Policy) (targets : Targets) (o : ObjectId) (p : ProxyId) :
    SessionM Unit := do
  let schema := ((← get).world.object o).schema
  schema.attributes.keys.forM (writeAttribute policy o p)
  schema.relations.values.forM (writeRelation policy targets o p)

/-- Writes an object to its record, and caches it. -/
def writeObject (mode : Persistence) (targets : Targets) (o : ObjectId) : SessionM Unit := do
  match targets.get? ((← get).world.nameOf o) with
  | none => pure ()
  | some target =>
    if !mode.createOnly || target.created then
      writeFields mode.policy targets o target.proxy
      act o.clearTouched
    modify fun s => s.cache o

/-- Writes an object, and perhaps all that it leads to, to the store.  Gives back the proxy of the
object's record. -/
def persist (mode : Persistence) (o : ObjectId) : SessionM ProxyId := do
  let w := (← get).world
  let objects := if mode.recursive then w.traverse o else [o]
  let targets ← objects.foldlM prepare OrderedMap.empty
  objects.forM (writeObject mode targets)
  let name := (← get).world.nameOf o
  match targets.get? name with
  | some target => pure target.proxy
  | none => throw (.objectNotFound name)

/-- Makes the record of an object, and perhaps of all that it leads to.  Records that exist already
stay as they are. -/
def add (o : ObjectId) (recursive : Bool) : SessionM ProxyId := do
  persist { policy := (← get).session.policy, recursive, createOnly := true } o

/-- Makes or updates the record of an object, and perhaps of all that it leads to. -/
def updateWith (policy : Policy) (o : ObjectId) (recursive : Bool) : SessionM ProxyId :=
  persist { policy, recursive, createOnly := false } o

/-- Makes or updates records by the policy of the session. -/
def update (o : ObjectId) (recursive : Bool) : SessionM ProxyId := do
  updateWith (← get).session.policy o recursive

/-- Removes the record of an object, if there is one, and drops the object from the cache. -/
def destroy (o : ObjectId) : SessionM Unit := do
  let s ← get
  let object := s.world.object o
  if s.world.store.testRecord object.className object.storedId then
    let record ← askStore fun store => store.getRecord object.className object.storedId
    onStore (Store.destroyRecord record)
  modify fun s => s.evict o object.id
  match object.oldId with
  | none => pure ()
  | some oldId => do
    modify fun s => s.evict o oldId
    act o.clearRename

end Session

end RecordGraph
