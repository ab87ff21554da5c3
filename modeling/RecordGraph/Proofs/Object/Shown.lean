import RecordGraph.Object.Basic
import RecordGraph.Proofs.OrderedMap

/-!
What an object shows.  A field shows what it holds, and a field that holds nothing shows as unset;
loading a field changes what that field shows and nothing else.
-/

namespace RecordGraph

namespace Field

/-- A field as an object keeps it, where null counts as nothing. -/
def settled (f : Field) : Field := if f.isUnset then .unset else f

/-- The value that a record should have for an attribute, given what its object reads as. -/
def asStored? : Field → Option Value
  | .unset => some .null
  | .value v => some v
  | _ => none

/-- The field of a relation that leads to given objects. -/
def ofTargets (multivalue : Bool) (os : List ObjectId) : Field :=
  if multivalue then .objects os else .ofTarget? os.getLast?

@[simp] theorem settled_ofTargets (multivalue : Bool) (os : List ObjectId) :
    (ofTargets multivalue os).settled = ofTargets multivalue os := by
  cases multivalue with
  | true => rfl
  | false =>
    unfold ofTargets
    cases os.getLast? <;> rfl

end Field

namespace Object

variable {o : Object} {name other : String} {f : Field}

/-- What a field shows. -/
def shown (o : Object) (name : String) : Field := (o.fields.get? name).getD .unset

theorem shown_load :
    (o.load name f).shown other = if other = name then f.settled else o.shown other := by
  unfold shown load Field.settled
  cases hunset : f.isUnset with
  | true =>
    simp only [if_true, OrderedMap.get?_erase]
    split <;> rfl
  | false =>
    simp only [Bool.false_eq_true, if_false, OrderedMap.get?_insert]
    split <;> rfl

end Object

end RecordGraph
