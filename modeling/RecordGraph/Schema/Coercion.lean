import RecordGraph.Calendar
import RecordGraph.Schema.Attribute

/-!
Coercion of values to the type of an attribute, and the binding of attributes, which coerces their
initial values.  Cardinality is checked before any element is looked at.
-/

namespace RecordGraph

open Text

/-- Floats from this magnitude on are not read as integers. -/
def integerLimit : Binary .double := Binary.ofRatio .double false (Nat.pow 10 38) 1

/-- The integer that a float is, if it is one below the limit. -/
def Binary.smallInteger? (x : Binary .double) : Option Int :=
  if x.lt integerLimit && integerLimit.negate.lt x then x.toInt? else none

namespace Attribute

/-- The truth value that a value stands for. -/
def toBool? : Value → Option Bool
  | .bool b => some b
  | .text s => Literal.bool? s
  | v => v.asInteger?.map (· != 0)

/-- The integer that a value stands for, where `*` means the greatest of the type. -/
def toInteger? (greatest : Int) : Value → Option Int
  | .text s => Literal.integer? s greatest
  | .bool b => some (if b then 1 else 0)
  | .float x => (x.convert .double).smallInteger?
  | .double x => x.smallInteger?
  | v => v.asInteger?

/-- The float that a value stands for, where `*` means the greatest of the type. -/
def toFloat? (greatest : Binary .double) : Value → Option (Binary .double)
  | .text s => Literal.float? s greatest
  | v => v.asDouble?

/-- Whether a finite number lies outside the format of 32 bits. -/
def exceedsSingle (x : Binary .double) : Bool :=
  let greatest : Binary .double := (Binary.greatest .single).convert .double
  x.isFinite && (greatest.lt x || x.lt greatest.negate)

/-- The range of the format of 32 bits, as messages show it. -/
def singleRangeText : String :=
  (Binary.greatest .single).negate.text ++ ".." ++ (Binary.greatest .single).text

/-- The texts of layouts, as messages show them. -/
def layoutsText (ls : List Calendar.Layout) : String :=
  String.intercalate ", " (ls.map Calendar.Layout.text)

/-- Coerces one value for an attribute, without regard to how many it holds. -/
def convert (a : Attribute) (isKnownClass : String → Bool) (v : Value) : Except Rejection Value :=
  let unconvertible : Except Rejection Value := .error (.coercion a.type.tag)
  match a.type with
  | .bool =>
    match toBool? v with
    | some b => .ok (.bool b)
    | none => unconvertible
  | .integer t =>
    match toInteger? t.greatest v with
    | none => unconvertible
    | some n =>
      if n < t.least ∨ t.greatest < n then
        .error (.range (toString t.least ++ ".." ++ toString t.greatest))
      else if !a.range.containsInt n then .error (.range a.range.render)
      else
        match t.narrow? n with
        | some w => .ok w
        | none => unconvertible
  | .float =>
    match toFloat? ((Binary.greatest .single).convert .double) v with
    | none => unconvertible
    | some x =>
      if exceedsSingle x then .error (.range singleRangeText)
      else if a.range.containsFloat x then .ok (.float (x.convert .single))
      else .error (.range a.range.render)
  | .double =>
    match toFloat? (Binary.greatest .double) v with
    | none => unconvertible
    | some x => if a.range.containsFloat x then .ok (.double x) else .error (.range a.range.render)
  | .text kind =>
    match v with
    | .text s =>
      if kind = .date ∧ !Calendar.isDate s then .error (.format (layoutsText Calendar.dateLayouts))
      else if kind = .time ∧ !Calendar.isTime s then
        .error (.format (layoutsText Calendar.timeLayouts))
      else if kind = .className ∧ !isKnownClass s then .error .unknownClass
      else if a.range.containsText s then .ok (.text s)
      else .error (.range a.range.render)
    | _ => unconvertible

/-- Coerces one value, naming the owner of the attribute where it is rejected. -/
def coerceOne (a : Attribute) (owner : String) (isKnownClass : String → Bool) (v : Value) :
    Except Error Value :=
  match a.convert isKnownClass v with
  | .ok w => .ok w
  | .error r => .error (.validation a.name owner v.render r)

/-- Coerces a value for an attribute of an owner. -/
def coerce (a : Attribute) (owner : String) (isKnownClass : String → Bool) (v : Value) :
    Except Error Value :=
  if v.isNull && !a.multivalue then .ok .null
  else if v.isList != a.multivalue then
    .error (.validation a.name owner v.render (.cardinality a.multivalue))
  else match v with
    | .list items => do pure (.list (← items.mapM (a.coerceOne owner isKnownClass)))
    | v => a.coerceOne owner isKnownClass v

/-- The initial value as the schema writes it.  Commas separate the elements of a list, and only a
text can be empty. -/
def rawInitial? (a : Attribute) (source : String) : Option Value :=
  if a.multivalue then
    some (.list (((commaItems source).filter fun s => !s.isEmpty).map .text))
  else if source.isEmpty && !a.type.isText then none
  else some (.text source)

/-- Binds an attribute for a class.  Binding a bound attribute does nothing.  An initial value that
does not coerce is reported and dropped; classes are checked only later, when they are known. -/
def bind (a : Attribute) (className : String) : Except Error (Attribute × List Warning) :=
  match a.binding with
  | some _ => .ok (a, [])
  | none => do
    let range ← Range.compile a.type a.rangeSource
    let bound := { a with binding := some { range } }
    match a.initialSource, a.initialSource.bind a.rawInitial? with
    | some source, some raw =>
      match bound.coerce className (fun _ => true) raw with
      | .ok v => pure ({ a with binding := some { range, initial := some v } }, [])
      | .error e =>
        pure (bound, [.initialValueIgnored className a.name source e.message])
    | _, _ => pure (bound, [])

end Attribute

end RecordGraph
