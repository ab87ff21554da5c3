import RecordGraph.Number.Shortest
import RecordGraph.Schema.AttributeType
import RecordGraph.Text.Quoted

/-!
Values of fields, and references to records.
-/

namespace RecordGraph

/-- A record by its own class, which is the most derived one, and its id in that class. -/
structure RecordRef where
  className : String
  id : String
deriving DecidableEq, Repr, Hashable

/-- The name of an id in a class. -/
def fullName (className id : String) : String := id ++ "@" ++ className

def RecordRef.fullName (r : RecordRef) : String := RecordGraph.fullName r.className r.id

/-- The order of records, by class and then by id. -/
def RecordRef.order (r s : RecordRef) : Ordering :=
  (compare r.className s.className).then (compare r.id s.id)

/-- A value that a store holds in a field.  Integers keep the width of their attribute; enumerators,
uids, dates, times and class names are texts. -/
inductive Value
  | null
  | bool (b : Bool)
  | integer (t : IntegerType) (n : Int) (holds : t.Holds n)
  | float (x : Binary .single)
  | double (x : Binary .double)
  | text (s : String)
  | record (r : RecordRef)
  | list (items : List Value)
deriving Repr

instance : Inhabited Value := ⟨.null⟩

/-- An integer as a value of a width, if the width holds it. -/
def IntegerType.narrow? (t : IntegerType) (n : Int) : Option Value :=
  if holds : t.Holds n then some (.integer t n holds) else none

namespace Value

def isNull : Value → Bool
  | .null => true
  | _ => false

def isList : Value → Bool
  | .list _ => true
  | _ => false

def asBool? : Value → Option Bool
  | .bool b => some b
  | _ => none

def asText? : Value → Option String
  | .text s => some s
  | _ => none

def asList? : Value → Option (List Value)
  | .list items => some items
  | _ => none

def asRecord? : Value → Option RecordRef
  | .record r => some r
  | _ => none

/-- The integer of a value of any width. -/
def asInteger? : Value → Option Int
  | .integer _ n _ => some n
  | _ => none

/-- The number of a float or an integer, rounded to 64 bits. -/
def asDouble? : Value → Option (Binary .double)
  | .float x => some (x.convert .double)
  | .double x => some x
  | .integer _ n _ => some (Binary.ofInt .double n)
  | _ => none

/-- The name of the kind of a value. -/
def kindName : Value → String
  | .null => "null"
  | .bool _ => "bool"
  | .integer t _ _ => t.tag
  | .float _ => "float"
  | .double _ => "double"
  | .text _ => "string"
  | .record _ => "object"
  | .list _ => "list"

/-- A value as messages show it. -/
def render : Value → String
  | .null => "null"
  | .bool b => if b then "true" else "false"
  | .integer _ n _ => toString n
  | .float x => x.text
  | .double x => x.text
  | .text s => Text.quoted s
  | .record r => "<" ++ r.fullName ++ ">"
  | .list items => "[" ++ String.intercalate ", " (items.map render) ++ "]"

mutual

/-- Equality of values.  Floats are compared as numbers, so that `nan` differs from itself; values of
different widths differ. -/
def same : Value → Value → Bool
  | .null, .null => true
  | .bool a, .bool b => a == b
  | .integer t m _, .integer u n _ => t == u && m == n
  | .float x, .float y => x.equal y
  | .double x, .double y => x.equal y
  | .text s, .text t => s == t
  | .record r, .record s => r == s
  | .list xs, .list ys => sameItems xs ys
  | _, _ => false

def sameItems : List Value → List Value → Bool
  | [], [] => true
  | x :: xs, y :: ys => same x y && sameItems xs ys
  | _, _ => false

end

end Value

end RecordGraph
