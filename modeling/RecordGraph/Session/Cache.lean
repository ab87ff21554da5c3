import RecordGraph.Object.Field
import RecordGraph.OrderedMap

/-!
The live objects of a session.  An object is indexed under its own class and under every ancestor, so
that asking for a base class finds objects of derived ones.
-/

namespace RecordGraph

/-- The live objects of a session by class and id. -/
structure SessionCache where
  indexes : OrderedMap String (OrderedMap String ObjectId) := .empty
deriving Repr

instance : Inhabited SessionCache := ⟨{}⟩

namespace SessionCache

/-- The index of a class, empty if there is none. -/
def index (c : SessionCache) (className : String) : OrderedMap String ObjectId :=
  (c.indexes.get? className).getD .empty

/-- Makes sure that a class has an index. -/
def init (c : SessionCache) (className : String) : SessionCache :=
  ⟨c.indexes.insertNew className .empty⟩

def get? (c : SessionCache) (className id : String) : Option ObjectId :=
  (c.index className).get? id

def contains (c : SessionCache) (className id : String) : Bool := (c.get? className id).isSome

/-- Puts an object into the index of a class. -/
def insertIn (c : SessionCache) (id : String) (o : ObjectId) (className : String) : SessionCache :=
  ⟨c.indexes.insert className ((c.index className).insert id o)⟩

/-- Puts an object into the indexes of classes. -/
def insert (c : SessionCache) (classNames : List String) (id : String) (o : ObjectId) :
    SessionCache :=
  classNames.foldl (fun c className => c.insertIn id o className) c

/-- Takes an object out of the index of a class, if it is there under the id. -/
def evictFrom (c : SessionCache) (id : String) (o : ObjectId) (className : String) : SessionCache :=
  ⟨c.indexes.modify className fun ids => if ids.get? id = some o then ids.erase id else ids⟩

/-- Takes an object out of the indexes of classes.  Other objects with the id stay. -/
def evict (c : SessionCache) (classNames : List String) (id : String) (o : ObjectId) :
    SessionCache :=
  classNames.foldl (fun c className => c.evictFrom id o className) c

/-- The objects of one class, those of derived classes among them. -/
def objectsOf (c : SessionCache) (className : String) : List ObjectId := (c.index className).values

/-- Every object, given their names.  Of objects with one name the first is listed. -/
def objects (c : SessionCache) (nameOf : ObjectId → String) : List ObjectId :=
  OrderedMap.distinctBy nameOf (c.indexes.values.flatMap OrderedMap.values)

theorem index_insertIn (c : SessionCache) (id : String) (o : ObjectId) (a b : String) :
    (c.insertIn id o a).index b = if b = a then (c.index a).insert id o else c.index b := by
  simp only [insertIn, index, OrderedMap.get?_insert]
  by_cases h : b = a <;> simp [h]

theorem get?_insertIn (c : SessionCache) (id id' : String) (o : ObjectId) (a b : String) :
    (c.insertIn id o a).get? b id' = if b = a ∧ id' = id then some o else c.get? b id' := by
  simp only [get?, index_insertIn]
  by_cases h : b = a
  · subst h
    by_cases hi : id' = id <;> simp [OrderedMap.get?_insert, hi]
  · simp [h]

theorem get?_insert (c : SessionCache) (names : List String) (id id' : String) (o : ObjectId)
    (b : String) :
    (c.insert names id o).get? b id' = if b ∈ names ∧ id' = id then some o else c.get? b id' := by
  unfold insert
  induction names generalizing c with
  | nil => simp
  | cons a names ih =>
    rw [List.foldl_cons, ih, get?_insertIn]
    by_cases hi : id' = id
    · by_cases hb : b = a <;> simp [hi, hb]
    · simp [hi]

theorem get?_evictFrom (c : SessionCache) (id id' : String) (o : ObjectId) (a b : String) :
    (c.evictFrom id o a).get? b id'
      = if b = a ∧ id' = id ∧ c.get? a id = some o then none else c.get? b id' := by
  simp only [evictFrom, get?, index, OrderedMap.get?_modify]
  by_cases h : b = a
  · subst h
    simp only [if_true, true_and]
    cases c.indexes.get? b with
    | none => simp
    | some ids =>
      simp only [Option.map_some, Option.getD_some]
      by_cases ho : ids.get? id = some o
      · by_cases hi : id' = id <;> simp [ho, hi, OrderedMap.get?_erase]
      · simp [ho]
  · simp [h]

theorem get?_evict (c : SessionCache) (names : List String) (id id' : String) (o : ObjectId)
    (b : String) :
    (c.evict names id o).get? b id'
      = if b ∈ names ∧ id' = id ∧ c.get? b id = some o then none else c.get? b id' := by
  unfold evict
  induction names generalizing c with
  | nil => simp
  | cons a names ih =>
    rw [List.foldl_cons, ih]
    simp only [get?_evictFrom]
    by_cases hi : id' = id
    · subst hi
      by_cases hb : b = a
      · subst hb
        by_cases ho : c.get? b id' = some o <;> simp [ho]
      · simp [hb]
    · simp [hi]

end SessionCache

end RecordGraph
