import RecordGraph.Number.Binary

/-!
The types that an attribute may have, and their tags in schemas.
-/

namespace RecordGraph

/-- The integers of a fixed width, with or without a sign. -/
inductive IntegerType
  | s8
  | u8
  | s16
  | u16
  | s32
  | u32
  | s64
  | u64
deriving DecidableEq, Repr

namespace IntegerType

def tag : IntegerType → String
  | .s8 => "s8"
  | .u8 => "u8"
  | .s16 => "s16"
  | .u16 => "u16"
  | .s32 => "s32"
  | .u32 => "u32"
  | .s64 => "s64"
  | .u64 => "u64"

def isSigned : IntegerType → Bool
  | .s8 | .s16 | .s32 | .s64 => true
  | .u8 | .u16 | .u32 | .u64 => false

def bits : IntegerType → Nat
  | .s8 | .u8 => 8
  | .s16 | .u16 => 16
  | .s32 | .u32 => 32
  | .s64 | .u64 => 64

/-- The least integer of the type. -/
def least (t : IntegerType) : Int := if t.isSigned then -(Nat.pow 2 (t.bits - 1) : Nat) else 0

/-- The greatest integer of the type. -/
def greatest (t : IntegerType) : Int :=
  if t.isSigned then (Nat.pow 2 (t.bits - 1) : Nat) - 1 else (Nat.pow 2 t.bits : Nat) - 1

/-- The integers of the type. -/
def Holds (t : IntegerType) (n : Int) : Prop := t.least ≤ n ∧ n ≤ t.greatest

instance (t : IntegerType) (n : Int) : Decidable (t.Holds n) := by unfold Holds; infer_instance

end IntegerType

/-- The kinds of attributes whose values are texts. -/
inductive TextKind
  | string
  | enumerator
  | uid
  /-- A reference to a class by its name. -/
  | className
  | date
  /-- A date with the time of day. -/
  | time
deriving DecidableEq, Repr

/-- The type of an attribute. -/
inductive AttributeType
  | bool
  | integer (t : IntegerType)
  | float
  | double
  | text (k : TextKind)
deriving DecidableEq, Repr

namespace AttributeType

/-- Every type. -/
def all : List AttributeType :=
  [ .bool, .integer .s8, .integer .u8, .integer .s16, .integer .u16, .integer .s32, .integer .u32,
    .integer .s64, .integer .u64, .float, .double, .text .string, .text .enumerator, .text .uid,
    .text .className, .text .date, .text .time ]

/-- The name of a type in schemas. -/
def tag : AttributeType → String
  | .bool => "bool"
  | .integer t => t.tag
  | .float => "float"
  | .double => "double"
  | .text .string => "string"
  | .text .enumerator => "enum"
  | .text .uid => "uid"
  | .text .className => "class"
  | .text .date => "date"
  | .text .time => "time"

/-- The type with a given tag. -/
def ofTag? (tag : String) : Option AttributeType := all.find? fun t => t.tag = tag

def isText : AttributeType → Bool
  | .text _ => true
  | _ => false

/-- The interval of an integer type. -/
def bounds? : AttributeType → Option (Int × Int)
  | .integer t => some (t.least, t.greatest)
  | _ => none

/-- The greatest finite number of a float type. -/
def greatestFloat? : AttributeType → Option (Binary .double)
  | .float => some ((Binary.greatest .single).convert .double)
  | .double => some (Binary.greatest .double)
  | _ => none

theorem mem_all (t : AttributeType) : t ∈ all := by
  rcases t with _ | t | _ | _ | k
  · decide
  · cases t <;> decide
  · decide
  · decide
  · cases k <;> decide

@[simp] theorem ofTag?_tag (t : AttributeType) : ofTag? t.tag = some t := by
  have key : ∀ t ∈ all, ofTag? t.tag = some t := by decide
  exact key t (mem_all t)

end AttributeType

end RecordGraph
