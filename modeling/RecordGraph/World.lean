import RecordGraph.Arena
import RecordGraph.Object.Basic
import RecordGraph.Proxy.Basic
import RecordGraph.Registry.Basic
import RecordGraph.Store.Operations

/-!
The world in which sessions work: one record store, and the registries, objects and proxies that were
made over it.  An action runs on the world and may fail; what it did before it failed stays done.
-/

namespace RecordGraph

/-- A record store with everything that was made over it. -/
structure World where
  store : Store := {}
  registries : Arena Registry := .empty
  objects : Arena Object := .empty
  proxies : Arena Proxy := .empty
  /-- What was reported so far, oldest first. -/
  warnings : List Warning := []
deriving Repr

instance : Inhabited World := ⟨{}⟩

/-- A computation on the world that may fail. -/
abbrev Action := ExceptT Error (StateM World)

namespace World

def registry (w : World) (r : RegistryId) : Registry := w.registries.read r.index

def object (w : World) (o : ObjectId) : Object := w.objects.read o.index

def proxy (w : World) (p : ProxyId) : Proxy := w.proxies.read p.index

/-- The full name of an object. -/
def nameOf (w : World) (o : ObjectId) : String := (w.object o).fullName

/-- The record behind a proxy. -/
def recordOf (w : World) (p : ProxyId) : RecordRef := (w.proxy p).record

/-- The full name of the record behind a proxy. -/
def recordName (w : World) (p : ProxyId) : String := (w.recordOf p).fullName

/-- Whether a registry derived a type for a class. -/
def isKnown (w : World) (r : RegistryId) (className : String) : Bool :=
  (w.registry r).isKnown className

def changeRegistry (w : World) (r : RegistryId) (f : Registry → Registry) : World :=
  { w with registries := w.registries.change r.index f }

def changeObject (w : World) (o : ObjectId) (f : Object → Object) : World :=
  { w with objects := w.objects.change o.index f }

def changeProxy (w : World) (p : ProxyId) (f : Proxy → Proxy) : World :=
  { w with proxies := w.proxies.change p.index f }

def warn (w : World) (warnings : List Warning) : World :=
  { w with warnings := w.warnings ++ warnings }

theorem object_changeObject (w : World) (o p : ObjectId) (f : Object → Object) :
    (w.changeObject o f).object p
      = if p = o ∧ o.index < w.objects.size then f (w.object o) else w.object p := by
  obtain ⟨i⟩ := o
  obtain ⟨j⟩ := p
  simp [object, changeObject, Arena.read_change]

theorem registry_changeRegistry (w : World) (r s : RegistryId) (f : Registry → Registry) :
    (w.changeRegistry r f).registry s
      = if s = r ∧ r.index < w.registries.size then f (w.registry r) else w.registry s := by
  obtain ⟨i⟩ := r
  obtain ⟨j⟩ := s
  simp [registry, changeRegistry, Arena.read_change]

theorem proxy_changeProxy (w : World) (p q : ProxyId) (f : Proxy → Proxy) :
    (w.changeProxy p f).proxy q
      = if q = p ∧ p.index < w.proxies.size then f (w.proxy p) else w.proxy q := by
  obtain ⟨i⟩ := p
  obtain ⟨j⟩ := q
  simp [proxy, changeProxy, Arena.read_change]

@[simp] theorem object_changeRegistry (w : World) (r : RegistryId) (f : Registry → Registry)
    (o : ObjectId) : (w.changeRegistry r f).object o = w.object o := rfl

end World

namespace Action

variable {α : Type}

/-- Asks the world. -/
def ask (f : World → Except Error α) : Action α := do
  MonadExcept.ofExcept (f (← get))

/-- Runs an operation of the store. -/
def onStore (m : StoreM α) : Action α := fun w =>
  let (result, store) := m w.store
  (result, { w with store })

/-- Runs an operation of a registry. -/
def onRegistry (r : RegistryId) (m : RegistryM α) : Action α := fun w =>
  let (result, registry) := m (w.registry r)
  (result, w.changeRegistry r fun _ => registry)

/-- Runs a computation that reports, and keeps its reports. -/
def logged (m : Logged α) : Action α := fun w =>
  let (result, warnings) := m []
  (result, w.warn warnings)

/-- Makes a registry. -/
def newRegistry : Action RegistryId := do
  let w ← get
  set { w with registries := w.registries.push {} }
  pure ⟨w.registries.size⟩

/-- Makes an object of a type without fields. -/
def newObject (type : ClassType) (id : String) : Action ObjectId := do
  let w ← get
  set { w with objects := w.objects.push { type, id } }
  pure ⟨w.objects.size⟩

/-- Makes a proxy for a record of a class that a registry has a schema for. -/
def newProxy (registry : RegistryId) (record : RecordRef) : Action ProxyId := do
  let schema ← ask fun w => (w.registry registry).schema record.className
  let w ← get
  set { w with proxies := w.proxies.push { record, schema, registry } }
  pure ⟨w.proxies.size⟩

end Action

end RecordGraph
