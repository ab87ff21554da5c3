import RecordGraph.Object.Operations
import RecordGraph.Proofs.Proxy.Writing

/-!
How many values a field is set with.  Objects and proxies check this each in their own way, for
attributes and for relations; all of these checks agree, and they come before every other check of what
the field is set with.
-/

namespace RecordGraph

open RecordGraph.Computation

/-! ### Errors of cardinality -/

/-- Whether a field that was not set for the number of its values holds many, if that is the error. -/
def miscount? {α : Type} : Except Error α → Option Bool
  | .ok _ => none
  | .error e =>
    match e.rejection? with
    | some (.cardinality m) => some m
    | _ => none

section Miscount

variable {α β : Type}

theorem miscount?_eq_some {x : Except Error α} {m : Bool} :
    miscount? x = some m ↔ ∃ e, x = .error e ∧ e.rejection? = some (.cardinality m) := by
  cases x with
  | ok a => simp [miscount?]
  | error e =>
    simp only [miscount?, Except.error.injEq, exists_eq_left']
    split
    · rename_i n heq
      simp [heq]
    · rename_i hne
      exact ⟨nofun, fun h => absurd h (hne m)⟩

theorem miscount?_isSome {x : Except Error α} :
    (miscount? x).isSome = true ↔ ∃ e, x = .error e ∧ e.isCardinality = true := by
  cases x with
  | ok a => simp [miscount?]
  | error e =>
    simp only [miscount?, Error.isCardinality, Except.error.injEq, exists_eq_left']
    cases e.rejection? with
    | none => simp
    | some r => cases r <;> simp

/-- Of all rejections only that of the number of values counts. -/
theorem miscount?_validation {r : Rejection} (hr : ∀ m, r ≠ .cardinality m)
    (field object value : String) :
    miscount? (.error (.validation field object value r) : Except Error α) = none := by
  cases r with
  | cardinality m => exact absurd rfl (hr m)
  | _ => rfl

theorem miscount?_choice {r : Rejection} (hr : ∀ m, r ≠ .cardinality m)
    (field object value : String) (wrong m : Bool) :
    miscount? (.error (.validation field object value (if wrong then .cardinality m else r)) :
      Except Error α) = if wrong then some m else none := by
  cases wrong with
  | true => rfl
  | false => exact miscount?_validation hr field object value

theorem miscount?_bind {x : Except Error α} {f : α → Except Error β}
    (hf : ∀ a, miscount? (f a) = none) : miscount? (x >>= f) = miscount? x := by
  cases x with
  | error e => rfl
  | ok a => exact hf a

theorem miscount?_mapM {f : α → Except Error β} (hf : ∀ a, miscount? (f a) = none)
    (xs : List α) : miscount? (xs.mapM f) = none := by
  induction xs with
  | nil => rfl
  | cons x xs ih =>
    rw [List.mapM_cons, miscount?_bind fun y => ?_]
    · exact hf x
    · rw [miscount?_bind fun _ => rfl]
      exact ih

end Miscount

/-! ### Attributes -/

namespace Attribute

variable {a : Attribute} {known : String → Bool}

/-- What is wrong with one value is never how many there are. -/
theorem convert_ne_cardinality (v : Value) (m : Bool) :
    a.convert known v ≠ .error (.cardinality m) := by
  unfold convert
  cases htype : a.type with
  | bool | integer t | float | double | text kind =>
    simp only
    repeat' split
    all_goals simp

theorem miscount?_coerceOne (owner : String) (v : Value) :
    miscount? (a.coerceOne owner known v) = none := by
  unfold coerceOne
  cases h : a.convert known v with
  | ok w => rfl
  | error r =>
    refine miscount?_validation (fun m hr => ?_) _ _ _
    exact convert_ne_cardinality v m (h.trans (congrArg Except.error hr))

/-- An attribute refuses a value for its number exactly if one is a list and the other holds one
value, whatever the elements are. -/
theorem miscount?_coerce (owner : String) {v : Value} (hv : v.isNull = false) :
    miscount? (a.coerce owner known v)
      = if v.isList != a.multivalue then some a.multivalue else none := by
  unfold coerce
  rw [hv, Bool.false_and, if_neg Bool.false_ne_true]
  cases v.isList != a.multivalue with
  | true => rfl
  | false =>
    rw [if_neg Bool.false_ne_true, if_neg Bool.false_ne_true]
    cases v with
    | list items =>
      exact (miscount?_bind fun _ => rfl).trans (miscount?_mapM (miscount?_coerceOne owner) items)
    | _ => exact miscount?_coerceOne owner _

end Attribute

/-! ### Objects -/

namespace ClassSchema

/-- Whether a field of the class holds many values, if there is such a field. -/
def multivalue? (s : ClassSchema) (name : String) : Option Bool :=
  match s.attribute? name with
  | some a => some a.multivalue
  | none => (s.relation? name).map Relation.multivalue

end ClassSchema

namespace World

variable {w : World} {o : Object} {name : String} {f : Field}

theorem miscount?_checkTargets (r : Relation) :
    miscount? (w.checkTargets o r f)
      = if f.isSequence != r.multivalue then some r.multivalue else none := by
  have htarget : ∀ m, Rejection.target r.target ≠ .cardinality m := fun _ => nofun
  unfold checkTargets
  dsimp only
  split
  · rename_i hm
    rw [hm]
    split
    · exact miscount?_validation htarget _ _ _
    · rfl
  · rename_i hm
    rw [hm]
    split
    · exact miscount?_validation htarget _ _ _
    · rfl
  · exact miscount?_choice htarget _ _ _ _ _

/-- An object refuses what a field is set with for its number exactly if the field is for another
number. -/
theorem miscount?_accept (hf : f.isUnset = false) :
    miscount? (w.accept o name f)
      = (o.schema.multivalue? name).filter fun m => f.isSequence != m := by
  unfold accept ClassSchema.multivalue?
  rw [hf, if_neg Bool.false_ne_true]
  cases o.schema.attribute? name with
  | some a =>
    cases f with
    | value v => exact (miscount?_bind fun _ => rfl).trans (Attribute.miscount?_coerce _ hf)
    | unset => exact absurd hf (by simp [Field.isUnset])
    | object target => exact miscount?_choice (by simp) _ _ _ _ _
    | objects targets => exact miscount?_choice (by simp) _ _ _ _ _
  | none =>
    cases o.schema.relation? name with
    | some r => exact miscount?_checkTargets r
    | none => rfl

end World

/-! ### Proxies -/

namespace Hierarchy

theorem miscount?_declaration (h : Hierarchy) (name : String) :
    miscount? (h.declaration name) = none := by
  unfold declaration
  split <;> rfl

theorem miscount?_hasField (h : Hierarchy) (name field : String) :
    miscount? (h.hasField name field) = none := by
  unfold hasField lineage ancestors
  refine (miscount?_bind fun _ => rfl).trans ((miscount?_bind fun _ => ?_).trans
    (miscount?_declaration h name))
  refine (miscount?_bind fun above => ?_).trans
    ((miscount?_bind fun _ => rfl).trans (miscount?_declaration h name))
  exact (miscount?_bind fun _ => rfl).trans (miscount?_mapM (miscount?_declaration h) above)

end Hierarchy

namespace Store

/-- What a store refuses to write is not refused for its number of values. -/
theorem miscount?_writePlace (s : Store) (r : RecordRef) (name : String) (accessor : Accessor)
    (v : Value) : miscount? (s.writePlace r name accessor v) = none := by
  have hlocate : miscount? (s.locateVisible r) = none := by
    unfold locateVisible
    split <;> rfl
  have hdatabase (place : String) : miscount? (s.database place) = none := by
    unfold database
    split <;> rfl
  have hwritable (place : String) : miscount? (s.checkWritable place) = none := by
    refine (miscount?_bind fun d => ?_).trans (hdatabase place)
    split <;> rfl
  have hfield : miscount? (s.checkField r name) = none := by
    refine (miscount?_bind fun known => ?_).trans (Hierarchy.miscount?_hasField _ _ _)
    split <;> rfl
  have hreach (place : String) : miscount? (s.checkReach place accessor v) = none := by
    unfold checkReach
    split
    · split <;> rfl
    · rfl
  refine (miscount?_bind fun place => ?_).trans hlocate
  refine (miscount?_bind fun _ => ?_).trans (hwritable place)
  refine (miscount?_bind fun _ => ?_).trans hfield
  exact (miscount?_bind fun _ => rfl).trans (hreach place)

end Store

namespace World

variable {w : World} {p : ProxyId} {name : String}

theorem miscount?_attributeWrite {v : Value} (hv : v.isNull = false) :
    miscount? (w.attributeWrite p name v)
      = (((w.proxy p).schema.attribute? name).map Attribute.multivalue).filter
          fun m => v.isList != m := by
  unfold attributeWrite
  cases (w.proxy p).schema.attribute? name with
  | none => rfl
  | some a =>
    change miscount? (a.coerce _ _ v >>= fun v' => _) = _
    refine (miscount?_bind fun v' => ?_).trans (Attribute.miscount?_coerce _ hv)
    exact (miscount?_bind fun _ => rfl).trans (Store.miscount?_writePlace ..)

theorem miscount?_checkRelated (r : Relation) (related : Related) :
    miscount? (ProxyId.checkRelated w p r related)
      = if related.isMany != r.multivalue then some r.multivalue else none := by
  unfold ProxyId.checkRelated
  dsimp only
  cases related.isMany != r.multivalue with
  | true => rfl
  | false =>
    rw [if_neg Bool.false_ne_true, if_neg Bool.false_ne_true]
    split
    · exact miscount?_validation (by simp) _ _ _
    · rfl

theorem miscount?_relationWrite (related : Related) :
    miscount? (w.relationWrite p name related)
      = (((w.proxy p).schema.relation? name).map Relation.multivalue).filter
          fun m => related.isMany != m := by
  unfold relationWrite
  cases (w.proxy p).schema.relation? name with
  | none => rfl
  | some r =>
    exact (miscount?_bind fun _ => Store.miscount?_writePlace ..).trans
      (miscount?_checkRelated r related)

end World

/-! ### All that sets a field -/

/-- A field that is set where its value is checked. -/
inductive Assignment
  | object (o : ObjectId) (f : Field)
  | proxyAttribute (p : ProxyId) (v : Value)
  | proxyRelation (p : ProxyId) (related : Related)

namespace Assignment

def run (name : String) : Assignment → Action Unit
  | .object o f => o.set name f
  | .proxyAttribute p v => do
    let _ ← p.setAttribute name v
  | .proxyRelation p related => p.setRelation name related

/-- Whether the field is cleared.  A relation of a proxy can be without target and is still set. -/
def isUnset : Assignment → Bool
  | .object _ f => f.isUnset
  | .proxyAttribute _ v => v.isNull
  | .proxyRelation _ _ => false

/-- Whether the field is given a list of values or of objects. -/
def isSequence : Assignment → Bool
  | .object _ f => f.isSequence
  | .proxyAttribute _ v => v.isList
  | .proxyRelation _ related => related.isMany

/-- Whether the field holds many values, if the class has a field that can be set in this way. -/
def multivalue? (w : World) (name : String) : Assignment → Option Bool
  | .object o _ => (w.object o).schema.multivalue? name
  | .proxyAttribute p _ => ((w.proxy p).schema.attribute? name).map Attribute.multivalue
  | .proxyRelation p _ => ((w.proxy p).schema.relation? name).map Relation.multivalue

variable {k : Assignment} {w : World} {name : String}

/-- What is checked before a field is set. -/
def check (w : World) (name : String) : Assignment → Except Error Unit
  | .object o f => do
    let _ ← w.accept (w.object o) name f
  | .proxyAttribute p v => do
    let _ ← w.attributeWrite p name v
  | .proxyRelation p related => do
    let _ ← w.relationWrite p name related

/-- An assignment fails where its check does, and then it changes nothing. -/
theorem run_cases (hname : name ≠ "id") :
    (∃ e, k.check w name = .error e ∧ k.run name w = (.error e, w))
      ∨ k.check w name = .ok () ∧ (k.run name w).1 = .ok () := by
  cases k with
  | object o f =>
    dsimp only [check, run, ObjectId.set]
    rw [if_neg hname, bind_apply, Action.ask_apply]
    cases w.accept (w.object o) name f with
    | error e => exact .inl ⟨e, rfl, rfl⟩
    | ok g => exact .inr ⟨rfl, rfl⟩
  | proxyAttribute p v =>
    dsimp only [check, run]
    rw [bind_apply, ProxyId.setAttribute_apply]
    cases w.attributeWrite p name v with
    | error e => exact .inl ⟨e, rfl, rfl⟩
    | ok written => exact .inr ⟨rfl, rfl⟩
  | proxyRelation p related =>
    dsimp only [check, run]
    rw [ProxyId.setRelation_apply]
    cases w.relationWrite p name related with
    | error e => exact .inl ⟨e, rfl, rfl⟩
    | ok place => exact .inr ⟨rfl, rfl⟩

theorem miscount?_check (hgiven : k.isUnset = false) :
    miscount? (k.check w name) = (k.multivalue? w name).filter fun m => k.isSequence != m := by
  cases k with
  | object o f => exact (miscount?_bind fun _ => rfl).trans (World.miscount?_accept hgiven)
  | proxyAttribute p v =>
    exact (miscount?_bind fun _ => rfl).trans (World.miscount?_attributeWrite hgiven)
  | proxyRelation p related =>
    exact (miscount?_bind fun _ => rfl).trans (World.miscount?_relationWrite related)

/-- Setting a field fails for the number of values exactly if the field holds many and is given one, or
holds one and is given a sequence.  The error tells which of the two, and nothing has changed then. -/
theorem run_isCardinality_iff (k : Assignment) (w : World) (name : String) (hname : name ≠ "id")
    (hgiven : k.isUnset = false) :
    ((∃ e, (k.run name w).1 = .error e ∧ e.isCardinality = true)
        ↔ ∃ m, k.multivalue? w name = some m ∧ k.isSequence ≠ m)
      ∧ ∀ m, k.multivalue? w name = some m → k.isSequence ≠ m →
        ∃ e, k.run name w = (.error e, w) ∧ e.rejection? = some (.cardinality m) := by
  have hcheck : ∀ m, miscount? (k.check w name) = some m
      ↔ k.multivalue? w name = some m ∧ k.isSequence ≠ m := by
    intro m
    rw [miscount?_check hgiven, Option.filter_eq_some_iff, bne_iff_ne]
  have hresult : (k.run name w).1 = k.check w name := by
    rcases run_cases (k := k) (w := w) hname with ⟨e, herror, hrun⟩ | ⟨hok, hrun⟩
    · rw [hrun, herror]
    · rw [hrun, hok]
  constructor
  · rw [← miscount?_isSome, hresult, Option.isSome_iff_exists]
    exact exists_congr hcheck
  · intro m hfield hcount
    obtain ⟨e, herror, hrejection⟩ := miscount?_eq_some.mp ((hcheck m).mpr ⟨hfield, hcount⟩)
    rcases run_cases (k := k) (w := w) hname with ⟨e', herror', hrun⟩ | ⟨hok, -⟩
    · obtain rfl : e' = e := Except.error.inj (herror'.symm.trans herror)
      exact ⟨e', hrun, hrejection⟩
    · rw [hok] at herror
      exact nomatch herror

/-- A class with a field that holds many texts, and one that leads to one object. -/
def personSchema : ClassSchema where
  name := "Person"
  attributes := .insert .empty "tags" {
    name := "tags", type := .text .string, multivalue := true, notNull := false
    rangeSource := none, initialSource := none, description := ""
    binding := some { range := .unbounded } }
  relations := .insert .empty "friend" {
    name := "friend", target := "Person", multivalue := false, notNull := false
    aggregation := false, description := "" }

/-- A world with an object of the class, and a proxy. -/
def personWorld : World where
  objects := Arena.empty.push { type := { schema := personSchema, bases := [], home := ⟨0⟩ }, id := "a" }
  proxies := Arena.empty.push { record := ⟨"Person", "a"⟩, schema := personSchema, registry := ⟨0⟩ }

/-- The texts cannot be set with one text, and a list of texts is not too many.  What leads to one object
cannot be set with a list, whatever it lists, and an object of which no record is known is refused for
another reason. -/
theorem run_isCardinality_iff_person :
    (∀ k ∈ [object ⟨0⟩ (.value (.text "x")), proxyAttribute ⟨0⟩ (.text "x")],
        ∃ e, k.run "tags" personWorld = (.error e, personWorld)
          ∧ e.rejection? = some (.cardinality true))
      ∧ (∀ k ∈ [object ⟨0⟩ (.objects []), proxyRelation ⟨0⟩ (.many [⟨7⟩])],
        ∃ e, k.run "friend" personWorld = (.error e, personWorld)
          ∧ e.rejection? = some (.cardinality false))
      ∧ (¬ ∃ e, ((object ⟨0⟩ (.value (.list [.text "x"]))).run "tags" personWorld).1 = .error e
        ∧ e.isCardinality = true)
      ∧ ∃ e, ((proxyRelation ⟨0⟩ (.one (some ⟨0⟩))).run "friend" personWorld).1 = .error e
        ∧ e.isCardinality = false := by
  refine ⟨fun k hk => ?_, fun k hk => ?_, ?_, ?_⟩
  · simp only [List.mem_cons, List.not_mem_nil, or_false] at hk
    have hcount : k.isUnset = false ∧ k.multivalue? personWorld "tags" = some true
        ∧ k.isSequence ≠ true := by
      rcases hk with rfl | rfl <;> decide
    exact (run_isCardinality_iff k personWorld "tags" (by decide) hcount.1).2 true hcount.2.1 hcount.2.2
  · simp only [List.mem_cons, List.not_mem_nil, or_false] at hk
    have hcount : k.isUnset = false ∧ k.multivalue? personWorld "friend" = some false
        ∧ k.isSequence ≠ false := by
      rcases hk with rfl | rfl <;> decide
    exact (run_isCardinality_iff k personWorld "friend" (by decide) hcount.1).2 false hcount.2.1 hcount.2.2
  · obtain ⟨hiff, -⟩ := run_isCardinality_iff (object ⟨0⟩ (.value (.list [.text "x"]))) personWorld
      "tags" (by decide) rfl
    intro hmiscount
    obtain ⟨m, hfield, hcount⟩ := hiff.mp hmiscount
    obtain rfl : true = m := Option.some.inj hfield
    exact hcount rfl
  · obtain ⟨hiff, -⟩ := run_isCardinality_iff (proxyRelation ⟨0⟩ (.one (some ⟨0⟩))) personWorld
      "friend" (by decide) rfl
    obtain ⟨e, herror⟩ : ∃ e, ((proxyRelation ⟨0⟩ (.one (some ⟨0⟩))).run "friend" personWorld).1
        = .error e := ⟨_, rfl⟩
    refine ⟨e, herror, Bool.eq_false_iff.mpr fun hcardinality => ?_⟩
    obtain ⟨m, hfield, hcount⟩ := hiff.mp ⟨e, herror, hcardinality⟩
    obtain rfl : false = m := Option.some.inj hfield
    exact hcount rfl

end Assignment

end RecordGraph
