import RecordGraph.World

/-!
Reading and writing records through proxies.  Attributes go straight to the store.  A relation is
fetched once; one that cannot be fetched is reported and reads as empty.
-/

namespace RecordGraph

namespace ProxyId

/-- The attribute of a proxy's class with a name. -/
def attributeSchema (p : ProxyId) (name : String) : Action Attribute :=
  Action.ask fun w =>
    match (w.proxy p).schema.attribute? name with
    | some a => .ok a
    | none => .error (.unknownField (w.proxy p).schema.name name)

/-- The relation of a proxy's class with a name. -/
def relationSchema (p : ProxyId) (name : String) : Action Relation :=
  Action.ask fun w =>
    match (w.proxy p).schema.relation? name with
    | some r => .ok r
    | none => .error (.unknownField (w.proxy p).schema.name name)

/-- Reads an attribute from the store. -/
def getAttribute (p : ProxyId) (name : String) : Action Value := do
  let a ← p.attributeSchema name
  Action.ask fun w => w.store.read (w.recordOf p) name a.getter

/-- What is wrong with a value that is no reference where a relation has one. -/
def unfit (relation : String) (v : Value) : Error :=
  .adhoc ("store returned " ++ v.kindName ++ " for relation `" ++ relation ++ "`")

/-- The proxy for a record that a relation points to. -/
def target (p : ProxyId) (relation : String) : Value → Action ProxyId
  | .record r => do Action.newProxy ((← get).proxy p).registry r
  | v => throw (unfit relation v)

/-- Fetches a relation from the store. -/
def fetch (p : ProxyId) (r : Relation) : Action Related := do
  let v ← Action.ask fun w => w.store.read (w.recordOf p) r.name r.accessor
  match v, r.multivalue with
  | .null, multivalue => pure (.empty multivalue)
  | .list items, true => do pure (.many (← items.mapM (p.target r.name)))
  | .record _, false => do pure (.one (some (← p.target r.name v)))
  | v, _ => throw (unfit r.name v)

/-- Reports that a relation cannot be fetched, and lets it read as empty. -/
def degrade (p : ProxyId) (r : Relation) (cause : Error) : Action Related := do
  let record := (← get).recordOf p
  let error := cause.relationResolution r.name record.fullName
  modify fun w =>
    (w.changeProxy p fun proxy => proxy.degrade r.name).warn
      [.relationDegraded record.className record.id r.name error.message]
  pure (.empty r.multivalue)

/-- Reads a relation, fetching it the first time. -/
def getRelation (p : ProxyId) (name : String) : Action Related := do
  let r ← p.relationSchema name
  match ((← get).proxy p).relations.get? name with
  | some related => pure related
  | none =>
    let related ← tryCatch (p.fetch r) (p.degrade r)
    modify fun w => w.changeProxy p fun proxy => proxy.cache name related
    pure related

/-- Reads a field. -/
def get (p : ProxyId) (name : String) : Action ProxyField := do
  if (((← MonadState.get).proxy p).schema.attribute? name).isSome then
    pure (.attribute (← p.getAttribute name))
  else pure (.relation (← p.getRelation name))

/-- Coerces a value and writes it to an attribute.  Gives back the value that was written. -/
def setAttribute (p : ProxyId) (name : String) (v : Value) : Action Value := do
  let a ← p.attributeSchema name
  let v ← Action.ask fun w =>
    a.coerce (w.recordName p) (w.isKnown (w.proxy p).registry) v
  Action.onStore (Store.write ((← MonadState.get).recordOf p) name a.setter v)
  pure v

/-- Checks that a relation may lead to given records. -/
def checkRelated (w : World) (p : ProxyId) (r : Relation) (related : Related) :
    Except Error Unit :=
  let owner := w.recordName p
  if related.isMany != r.multivalue then
    .error (.validation r.name owner (related.render w.recordName)
      (.cardinality r.multivalue))
  else match related.targets.find? fun t => !(w.proxy t).schema.isA r.target with
    | some stranger =>
      .error (.validation r.name owner (w.recordName stranger) (.target r.target))
    | none => .ok ()

/-- Writes a relation, and keeps what was written. -/
def setRelation (p : ProxyId) (name : String) (related : Related) : Action Unit := do
  let r ← p.relationSchema name
  Action.ask fun w => checkRelated w p r related
  let w ← MonadState.get
  Action.onStore (Store.write (w.recordOf p) name r.accessor (related.toValue w.recordOf))
  modify fun w => w.changeProxy p fun proxy => (proxy.restore name).cache name related

/-- Writes a field. -/
def set (p : ProxyId) (name : String) : ProxyField → Action Unit
  | .attribute v => do
    let _ ← p.setAttribute name v
  | .relation related => p.setRelation name related

end ProxyId

end RecordGraph
