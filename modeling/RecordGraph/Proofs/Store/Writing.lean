import RecordGraph.Proofs.Computation
import RecordGraph.Proofs.Store.Shape

/-!
Writing to stores.  A write that passes its checks changes what is stored for one field of one record;
one that does not pass them changes nothing.  A new record is empty, so that making one changes
nothing that is stored.
-/

namespace RecordGraph

open RecordGraph.Computation

namespace Value

/-- The value that reading gives after a value was written, where null removes the field. -/
def orEmpty (v : Value) (multi : Bool) : Value :=
  if v.isNull then (if multi then .list [] else .null) else v

theorem targets_orEmpty_subset (v : Value) (multi : Bool) : (v.orEmpty multi).targets ⊆ v.targets := by
  unfold orEmpty
  split
  · cases multi <;> simp [targets, targets.go]
  · exact List.Subset.refl _

end Value

namespace Store

variable {s t : Store} {r r' : RecordRef} {name name' place place' : String} {v : Value}

theorem ask_apply {α : Type} (f : Store → Except Error α) (s : Store) :
    Store.ask f s = (f s, s) := by
  rw [Store.ask, bind_of_ok (get_apply s), ofExcept_apply]

theorem ask_eq_ok {α : Type} {f : Store → Except Error α} {a : α}
    (h : Store.ask f s = (.ok a, t)) : f s = .ok a ∧ s = t := by
  rw [ask_apply] at h
  obtain ⟨hresult, rfl⟩ := Prod.mk.inj h
  exact ⟨hresult, rfl⟩

theorem changeDatabase_apply {d : Database} (hd : s.databases.get? name = some d)
    (f : Database → Database) :
    changeDatabase name f s = (.ok (), { s with databases := s.databases.modify name f }) := by
  have hask : Store.ask (fun s => s.database name) s = (.ok d, s) := by
    rw [ask_apply, database, hd]
  rw [changeDatabase, bind_of_ok hask]
  rfl

/-! ### Fields -/

/-- The store with a value written to a field of a record in a database. -/
def put (s : Store) (place : String) (r : RecordRef) (name : String) (v : Value) : Store :=
  { s with databases := s.databases.modify place fun d =>
      let fields := (d.records.get? r).getD .empty
      let fields := if v.isNull then fields.erase name else fields.insert name v
      { d with records := d.records.insert r fields } }

/-- Checks that a database includes what a value points to, if it is written through an object
accessor. -/
def checkReach (s : Store) (place : String) (accessor : Accessor) (v : Value) : Except Error Unit :=
  if accessor.isObject then
    match v.targets.find? fun t => (s.locate (s.closure [place]) t).isNone with
    | some t =>
      .error (.constraintViolation
        (t.fullName ++ " is not reachable from database `" ++ place ++ "`"))
    | none => .ok ()
  else .ok ()

/-- The database in which a value can be written to a field, if it can. -/
def writePlace (s : Store) (r : RecordRef) (name : String) (accessor : Accessor) (v : Value) :
    Except Error String := do
  let place ← s.locateVisible r
  s.checkWritable place
  s.checkField r name
  s.checkReach place accessor v
  pure place

theorem locateVisible_eq_ok : s.locateVisible r = .ok place ↔ s.location r = some place := by
  unfold locateVisible
  cases s.location r <;> simp

theorem get?_of_location (h : s.location r = some place) :
    ∃ d, s.databases.get? place = some d ∧ d.holds r = true :=
  (locate_eq_some h).2

theorem checkReach_eq_ok {accessor : Accessor} :
    s.checkReach place accessor v = .ok () ↔ (accessor.isObject = true →
      ∀ t ∈ v.targets, (s.locate (s.closure [place]) t).isSome = true) := by
  unfold checkReach
  cases hobject : accessor.isObject with
  | false => simp
  | true =>
    simp only [if_true, forall_const]
    cases hmissing : v.targets.find? fun t => (s.locate (s.closure [place]) t).isNone with
    | some t =>
      have hnone := List.find?_some hmissing
      simp only [reduceCtorEq, false_iff]
      intro hall
      have hsome := hall t (List.mem_of_find?_eq_some hmissing)
      rw [← Option.not_isNone, hnone] at hsome
      simp at hsome
    | none =>
      simp only [true_iff]
      intro t ht
      have hseen := List.find?_eq_none.mp hmissing t ht
      exact Option.isSome_iff_ne_none.mpr fun hnone => hseen (by rw [hnone]; rfl)

/-- What a write that can be done relies on. -/
theorem writePlace_eq_ok {accessor : Accessor} :
    s.writePlace r name accessor v = .ok place ↔ s.location r = some place
      ∧ s.checkWritable place = .ok () ∧ s.checkField r name = .ok ()
      ∧ s.checkReach place accessor v = .ok () := by
  unfold writePlace
  simp only [except_bind_eq_ok, locateVisible_eq_ok, pure, Except.pure, Except.ok.injEq]
  constructor
  · rintro ⟨_, hplace, _, hwritable, _, hfield, _, hreach, rfl⟩
    exact ⟨hplace, hwritable, hfield, hreach⟩
  · rintro ⟨hplace, hwritable, hfield, hreach⟩
    exact ⟨place, hplace, (), hwritable, (), hfield, (), hreach, rfl⟩

/-- A write does its checks, and then changes one field. -/
theorem write_apply (s : Store) (r : RecordRef) (name : String) (accessor : Accessor) (v : Value) :
    Store.write r name accessor v s = match s.writePlace r name accessor v with
      | .ok place => (.ok (), s.put place r name v)
      | .error e => (.error e, s) := by
  rw [write, bind_apply, ask_apply]
  cases hplace : s.locateVisible r with
  | error e => simp [writePlace, hplace, bind, Except.bind]
  | ok place =>
    dsimp only
    rw [bind_apply, ask_apply]
    cases hwritable : s.checkWritable place with
    | error e => simp [writePlace, hplace, hwritable, bind, Except.bind]
    | ok u =>
      dsimp only
      rw [bind_apply, ask_apply]
      cases hfield : s.checkField r name with
      | error e => simp [writePlace, hplace, hwritable, hfield, bind, Except.bind]
      | ok u =>
        obtain ⟨d, hd, -⟩ := get?_of_location (locateVisible_eq_ok.mp hplace)
        have hchange := changeDatabase_apply hd fun d =>
          let fields := (d.records.get? r).getD .empty
          let fields := if v.isNull then fields.erase name else fields.insert name v
          { d with records := d.records.insert r fields }
        have hresult : s.writePlace r name accessor v = (s.checkReach place accessor v).map
            fun _ => place := by
          simp only [writePlace, hplace, hwritable, hfield, bind, Except.bind]
          cases s.checkReach place accessor v <;> rfl
        rw [hresult, checkReach]
        cases hobject : accessor.isObject with
        | false => exact hchange
        | true =>
          simp only [if_true]
          rw [bind_of_ok (get_apply s)]
          cases hmissing : v.targets.find? fun t => (s.locate (s.closure [place]) t).isNone with
          | some t => rfl
          | none => exact hchange

/-- A successful write puts its value where the record is, after all checks. -/
theorem write_run {accessor : Accessor} (h : Store.write r name accessor v s = (.ok (), t)) :
    ∃ place, s.writePlace r name accessor v = .ok place ∧ t = s.put place r name v := by
  rw [write_apply] at h
  cases hplace : s.writePlace r name accessor v with
  | error e => simp [hplace] at h
  | ok place =>
    rw [hplace] at h
    exact ⟨place, rfl, (Prod.mk.inj h).2.symm⟩

theorem sameShape_put (hplace : s.location r = some place) : s.SameShape (s.put place r name v) := by
  obtain ⟨d, hd, hholds⟩ := get?_of_location hplace
  unfold SameShape bare put OrderedMap.modify
  rw [OrderedMap.mapValues_mapValues]
  congr 1
  refine OrderedMap.mapValues_congr fun e he => ?_
  by_cases heq : e.1 = place
  · have hget := OrderedMap.get?_eq_some_iff.mpr he
    rw [heq, hd] at hget
    cases hget
    rw [if_pos heq]
    exact Database.bare_insert _ hholds
  · rw [if_neg heq]

/-- Writing a field changes what is stored for it, and nothing else that is stored. -/
theorem stored_put (hplace : s.location r = some place) (multi : Bool) :
    (s.put place r name v).stored place' r' name' multi
      = if place' = place ∧ r' = r ∧ name' = name then v.orEmpty multi
        else s.stored place' r' name' multi := by
  obtain ⟨d, hd, -⟩ := get?_of_location hplace
  unfold stored put
  simp only [OrderedMap.get?_modify]
  by_cases heq : place' = place
  · subst heq
    simp only [if_true, true_and, hd, Option.map_some, Option.bind_some, OrderedMap.get?_insert]
    by_cases hr : r' = r
    · subst hr
      simp only [if_true, true_and, Option.bind_some]
      by_cases hname : name' = name
      · subst hname
        cases hnull : v.isNull <;>
          simp [hnull, Value.orEmpty, OrderedMap.get?_erase, OrderedMap.get?_insert]
      · simp only [hname, if_false]
        have hsame : (if v.isNull then ((d.records.get? r').getD .empty).erase name
            else ((d.records.get? r').getD .empty).insert name v).get? name'
            = (d.records.get? r').bind fun fields => fields.get? name' := by
          cases v.isNull <;> cases d.records.get? r' <;>
            simp [OrderedMap.get?_erase, OrderedMap.get?_insert, hname]
        rw [hsame]
    · simp [hr]
  · simp [heq]

/-! ### Reading -/

/-- Through an accessor of attributes a field reads as what is stored for it. -/
theorem read_of_location {accessor : Accessor} (hplace : s.location r = some place)
    (hobject : accessor.isObject = false) :
    s.read r name accessor
      = (s.checkField r name).map fun _ => s.stored place r name accessor.multi := by
  obtain ⟨d, hd, -⟩ := get?_of_location hplace
  unfold read
  rw [locateVisible_eq_ok.mpr hplace]
  cases hfield : s.checkField r name with
  | error e => simp [bind, Except.bind, Except.map]
  | ok u => simp [bind, Except.bind, pure, Except.pure, Except.map, database, hd, hobject, stored]

/-- Where all targets are visible, a field reads as what is stored for it through any accessor. -/
theorem read_of_visible {accessor : Accessor} (hplace : s.location r = some place)
    (hfield : s.checkField r name = .ok ())
    (htargets : ∀ t ∈ (s.stored place r name accessor.multi).targets, s.Visible t) :
    s.read r name accessor = .ok (s.stored place r name accessor.multi) := by
  cases hobject : accessor.isObject with
  | false =>
    rw [read_of_location hplace hobject, hfield]
    rfl
  | true =>
    obtain ⟨d, hd, -⟩ := get?_of_location hplace
    have hstored : s.stored place r name accessor.multi
        = ((d.records.get? r).bind fun fields => fields.get? name).getD
          (if accessor.multi then .list [] else .null) := by
      rw [stored, hd]
      rfl
    have hnone : (s.stored place r name accessor.multi).targets.find?
        (fun t => (s.locate s.visible t).isNone) = none := by
      rw [List.find?_eq_none]
      intro t ht
      have hvisible : (s.locate s.visible t).isSome = true := htargets t ht
      simp [Option.isSome_iff_ne_none.mp hvisible]
    rw [hstored] at hnone
    unfold read
    rw [locateVisible_eq_ok.mpr hplace, hfield, hstored]
    simp only [bind, Except.bind, pure, Except.pure, database, hd, hobject, if_true, hnone]

theorem checkField_of_hasField (h : s.hierarchy.hasField r.className name = .ok true) :
    s.checkField r name = .ok () := by
  unfold checkField
  rw [h]
  rfl

/-- Stores of one shape in which a field holds the same read it the same. -/
theorem SameShape.read_eq (h : s.SameShape t) {accessor : Accessor}
    (hstored : ∀ place, s.location r = some place →
      t.stored place r name accessor.multi = s.stored place r name accessor.multi) :
    t.read r name accessor = s.read r name accessor := by
  unfold read
  rw [h.locateVisible]
  cases hplace : s.locateVisible r with
  | error e => rfl
  | ok place =>
    have hlocation := locateVisible_eq_ok.mp hplace
    have hsame := hstored place hlocation
    obtain ⟨d, hd, -⟩ := get?_of_location hlocation
    obtain ⟨d', hd', -⟩ := get?_of_location ((h.location r).trans hlocation)
    simp only [stored, hd, hd', Option.bind_some] at hsame
    simp only [bind, Except.bind, h.checkField, database, hd, hd', hsame, h.visible, h.locate]

end Store

end RecordGraph
