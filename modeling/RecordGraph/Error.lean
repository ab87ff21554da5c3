/-!
Errors and warnings.  An error is a chain of causes, the one added last standing first; every
question about an error looks at the whole chain.
-/

namespace RecordGraph

/-- Why a value was rejected. -/
inductive Rejection
  /-- A scalar for a field that holds many values, or a sequence for one that holds one. -/
  | cardinality (multivalue : Bool)
  | coercion (type : String)
  | range (interval : String)
  | format (accepted : String)
  | unknownClass
  | target (expected : String)
deriving DecidableEq, Repr

namespace Rejection

def message : Rejection → String
  | .cardinality true => "multivalue fields must be set with a sequence"
  | .cardinality false => "single-valued fields cannot be set with a sequence"
  | .coercion type => "cannot convert to " ++ type
  | .range interval => "not in range " ++ interval
  | .format accepted => "expected one of the formats " ++ accepted
  | .unknownClass => "no such class is known"
  | .target expected => "expected an object of class or subclass `" ++ expected ++ "`"

def kindName : Rejection → String
  | .cardinality _ => "cardinality"
  | .coercion _ => "coercion"
  | .range _ => "range"
  | .format _ => "format"
  | .unknownClass => "unknown_class"
  | .target _ => "target"

end Rejection

/-- One link of an error. -/
inductive Cause
  | adhoc (message : String)
  /-- An error from elsewhere, by its own chain of texts. -/
  | foreign (outermost : String) (inner : List String)
  | alreadyExists (what : String)
  | constraintViolation (what : String)
  | invalidSchema (message : String)
  | objectNotFound (what : String)
  | recordNotFound (what : String)
  | relationResolution (relation object : String)
  | unknownField (className field : String)
  | validation (field object value : String) (rejection : Rejection)
deriving DecidableEq, Repr

namespace Cause

def message : Cause → String
  | .adhoc message => message
  | .foreign outermost _ => outermost
  | .alreadyExists what => "record already exists: " ++ what
  | .constraintViolation what => "constraint violation: " ++ what
  | .invalidSchema message => "invalid schema: " ++ message
  | .objectNotFound what => "object not found: " ++ what
  | .recordNotFound what => "record not found: " ++ what
  | .relationResolution relation object =>
    "cannot resolve relation `" ++ relation ++ "` of " ++ object
  | .unknownField className field =>
    "`" ++ field ++ "` is not an attribute or relation of class `" ++ className
      ++ "` or any of its superclasses"
  | .validation field object value rejection =>
    "invalid value " ++ value ++ " for `" ++ field ++ "` of " ++ object ++ ": " ++ rejection.message

def rejection? : Cause → Option Rejection
  | .validation _ _ _ r => some r
  | _ => none

end Cause

/-- An error: the cause added last, and those that led to it. -/
structure Error where
  cause : Cause
  earlier : List Cause := []
deriving DecidableEq, Repr

namespace Error

def adhoc (message : String) : Error := ⟨.adhoc message, []⟩
def foreign (outermost : String) (inner : List String) : Error := ⟨.foreign outermost inner, []⟩
def alreadyExists (what : String) : Error := ⟨.alreadyExists what, []⟩
def constraintViolation (what : String) : Error := ⟨.constraintViolation what, []⟩
def invalidSchema (message : String) : Error := ⟨.invalidSchema message, []⟩
def objectNotFound (what : String) : Error := ⟨.objectNotFound what, []⟩
def recordNotFound (what : String) : Error := ⟨.recordNotFound what, []⟩
def unknownField (className field : String) : Error := ⟨.unknownField className field, []⟩
def validation (field object value : String) (r : Rejection) : Error :=
  ⟨.validation field object value r, []⟩

/-- The causes, the one added last first. -/
def chain (e : Error) : List Cause := e.cause :: e.earlier

/-- The error that follows from this one.  Of the consequent only its outermost cause counts. -/
def context (e consequent : Error) : Error := ⟨consequent.cause, e.chain⟩

/-- An ad hoc error with the text of the outermost cause. -/
def quote (e : Error) : Error := adhoc e.cause.message

/-- A relation whose records cannot be fetched, because of this error. -/
def relationResolution (e : Error) (relation object : String) : Error :=
  e.context ⟨.relationResolution relation object, []⟩

/-- The text of an error, the cause added last first. -/
def message (e : Error) : String := String.intercalate ": " (e.chain.map Cause.message)

/-- The cause that started the chain. -/
def root (e : Error) : Cause := e.earlier.getLastD e.cause

/-- The texts of the errors behind this one.  An error from elsewhere tells its own. -/
def sources (e : Error) : List String := go e.cause e.earlier
where
  go : Cause → List Cause → List String
    | .foreign outermost inner, _ => outermost :: inner
    | _, [] => []
    | _, c :: cs => message ⟨c, cs⟩ :: go c cs

/-- The outermost rejection of the chain. -/
def rejection? (e : Error) : Option Rejection := e.chain.findSome? Cause.rejection?

def isValidation (e : Error) : Bool := e.rejection?.isSome

def isCardinality (e : Error) : Bool :=
  match e.rejection? with
  | some (.cardinality _) => true
  | _ => false

def isUnknownField (e : Error) : Bool :=
  e.chain.any fun c => match c with | .unknownField .. => true | _ => false

def isRecordNotFound (e : Error) : Bool :=
  e.chain.any fun c => match c with | .recordNotFound _ => true | _ => false

def isAlreadyExists (e : Error) : Bool :=
  e.chain.any fun c => match c with | .alreadyExists _ => true | _ => false

def isConstraintViolation (e : Error) : Bool :=
  e.chain.any fun c => match c with | .constraintViolation _ => true | _ => false

def isObjectNotFound (e : Error) : Bool :=
  e.chain.any fun c => match c with | .objectNotFound _ => true | _ => false

def isInvalidSchema (e : Error) : Bool :=
  e.chain.any fun c => match c with | .invalidSchema _ => true | _ => false

def isRelationResolution (e : Error) : Bool :=
  e.chain.any fun c => match c with | .relationResolution .. => true | _ => false

/-- Whether the record store raised the error: a missing or duplicate record, or a refused write. -/
def isStoreError (e : Error) : Bool :=
  e.isRecordNotFound || e.isAlreadyExists || e.isConstraintViolation

/-- The name of the kind of an error.  A rejection anywhere in the chain counts before all else. -/
def kindName (e : Error) : String :=
  match e.rejection? with
  | some r => "validation." ++ r.kindName
  | none =>
    if e.isUnknownField then "unknown_field"
    else if e.isRecordNotFound then "record_not_found"
    else if e.isAlreadyExists then "already_exists"
    else if e.isConstraintViolation then "constraint_violation"
    else if e.isObjectNotFound then "object_not_found"
    else if e.isInvalidSchema then "invalid_schema"
    else if e.isRelationResolution then "relation_resolution"
    else "other"

end Error

/-- What is reported beside the result of an operation that went on in spite of it. -/
inductive Warning
  | initialValueIgnored (className field source error : String)
  | relationDegraded (className id field error : String)
  | fieldSkipped (className id field error : String)
deriving DecidableEq, Repr

namespace Warning

def message : Warning → String
  | .initialValueIgnored .. => "ignoring initial value"
  | .relationDegraded .. => "relation degraded to empty"
  | .fieldSkipped .. => "skipping field"

/-- What a warning is about, as named texts. -/
def details : Warning → List (String × String)
  | .initialValueIgnored className field source error =>
    [("class", className), ("field", field), ("init_value", source), ("error", error)]
  | .relationDegraded className id field error
  | .fieldSkipped className id field error =>
    [("class", className), ("id", id), ("field", field), ("error", error)]

end Warning

end RecordGraph
