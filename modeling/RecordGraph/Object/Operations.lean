import RecordGraph.World

/-!
Reading and writing objects.  A write is checked against the schema of the object's class before
anything changes; attributes are coerced, and the targets of relations must belong to the right class.
-/

namespace RecordGraph

namespace World

/-- Notes in the registry of an object's type that the object was written to. -/
def noteUpdated (w : World) (o : ObjectId) : World :=
  w.changeRegistry (w.object o).type.home fun r => r.noteUpdated (w.nameOf o) o

/-- Gives an object another id. -/
def setId (w : World) (o : ObjectId) (id : String) : World :=
  let object := w.object o
  let renamed := { object with id }
  (w.changeObject o fun _ => renamed).changeRegistry object.type.home fun r =>
    r.noteRenamed o object.fullName renamed.fullName

/-- Puts a value into a field. -/
def writeField (w : World) (o : ObjectId) (name : String) (f : Field) : World :=
  (w.changeObject o fun object => object.write name f).noteUpdated o

/-- Checks the targets for a relation of an object. -/
def checkTargets (w : World) (o : Object) (r : Relation) (f : Field) : Except Error Field :=
  let reject (shown : Field) (why : Rejection) : Except Error Field :=
    .error (.validation r.name o.fullName (shown.render w.nameOf) why)
  let checked (targets : List ObjectId) : Except Error Field :=
    match targets.find? fun t => !(w.object t).type.isA r.target with
    | some stranger => reject (.object stranger) (.target r.target)
    | none => .ok f
  match f, r.multivalue with
  | .object target, false => checked [target]
  | .objects targets, true => checked targets
  | f, multivalue =>
    reject f (if f.isSequence != multivalue then .cardinality multivalue else .target r.target)

/-- The value that a field of an object takes when it is set. -/
def accept (w : World) (o : Object) (name : String) (f : Field) : Except Error Field :=
  if f.isUnset then .ok .unset
  else match o.schema.attribute? name with
    | some a =>
      match f with
      | .value v => do pure (.value (← a.coerce o.fullName (w.isKnown o.type.home) v))
      | f =>
        .error (.validation name o.fullName (f.render w.nameOf)
          (if f.isObjects != a.multivalue then .cardinality a.multivalue else .coercion a.type.tag))
    | none =>
      match o.schema.relation? name with
      | some r => w.checkTargets o r f
      | none => .error (.unknownField o.className name)

/-- Whether two objects are equal: the same one, or of one class and id. -/
def equalObjects (w : World) (a b : ObjectId) : Bool :=
  a == b || (w.object a).record == (w.object b).record

/-- The order of objects, by class and then by id. -/
def compareObjects (w : World) (a b : ObjectId) : Ordering :=
  if a == b then .eq else (w.object a).record.order (w.object b).record

def sortObjects (w : World) (os : List ObjectId) : List ObjectId :=
  os.mergeSort fun a b => (w.compareObjects a b).isLE

end World

namespace ObjectId

/-- Reads a field.  A field that holds nothing takes its initial value, or the empty list. -/
def get (o : ObjectId) (name : String) : Action Field := do
  let (f, object) ← Action.ask fun w => (w.object o).read name
  modify fun w => w.changeObject o fun _ => object
  pure f

/-- Writes a field that the schema allows to hold the value. -/
def set (o : ObjectId) (name : String) (f : Field) : Action Unit :=
  if name = "id" then
    match f with
    | .value (.text id) => modify fun w => w.setId o id
    | f => Action.ask fun w =>
      .error (.validation "id" (w.nameOf o) (f.render w.nameOf) (.coercion "string"))
  else do
    let accepted ← Action.ask fun w => w.accept (w.object o) name f
    modify fun w => w.writeField o name accepted

/-- Writes a field of the object's class whatever the value. -/
def setUnchecked (o : ObjectId) (name : String) (f : Field) : Action Unit :=
  match name, f with
  | "id", .value (.text id) => modify fun w => w.setId o id
  | name, f => do
    let object := (← MonadState.get).object o
    if object.schema.hasField name then modify fun w => w.writeField o name f
    else throw (.unknownField object.className name)

/-- Gives an object another id.  The store keeps its record under the id from before until the object
is persisted. -/
def rename (o : ObjectId) (newId : String) : Action Unit :=
  modify fun w =>
    let object := w.object o
    if newId = object.id then w
    else (w.changeObject o fun object => { object with oldId := some object.storedId }).setId o newId

/-- Drops the note that an object was renamed. -/
def clearRename (o : ObjectId) : Action Unit :=
  modify fun w => w.changeObject o fun object => { object with oldId := none }

/-- Drops the note of the relations that were written. -/
def clearTouched (o : ObjectId) : Action Unit :=
  modify fun w => w.changeObject o fun object => { object with touched := [] }

/-- Takes over what another object holds in the fields that both classes have. -/
def copy (o other : ObjectId) : Action Unit := do
  let w ← MonadState.get
  let schema := (w.object o).schema
  ((w.object other).fields.entries.filter fun e => schema.hasField e.1).forM fun e =>
    o.setUnchecked e.1 e.2

end ObjectId

end RecordGraph
