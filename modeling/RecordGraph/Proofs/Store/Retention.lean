import RecordGraph.Proofs.Store.Integrity

/-!
What making and renaming records keep.  Both write a record into a database without asking whether
that very database holds it: they only ask for visible records of visible classes.  A record can so be
written over, but only by making it in a database that is not visible, or by renaming another record of
a class that is not visible.
-/

namespace RecordGraph

/-- Fields with every reference to one record replaced by another. -/
def retargetFields (source target : RecordRef) (fields : Fields) : Fields :=
  fields.mapValues fun _ v => v.retarget source target

namespace Database

variable {d : Database} {r renamed x : RecordRef}

theorem get?_retarget : (d.retarget r renamed).records.get? x
    = (d.records.get? x).map (retargetFields r renamed) :=
  OrderedMap.get?_mapValues ..

theorem get?_moved (hholds : d.holds r = true) : (d.moved r renamed).records.get? x
    = if x = renamed then d.records.get? r else if x = r then none else d.records.get? x := by
  obtain ⟨fields, hfields⟩ := Option.isSome_iff_exists.mp ((d.records.get?_isSome r).trans hholds)
  rw [moved, OrderedMap.get?_insert, OrderedMap.get?_erase, hfields]
  rfl

/-- Under another name a record either goes to a new place, or takes the place of another one. -/
theorem size_moved (hholds : d.holds r = true) : (d.moved r renamed).records.size
    = if renamed ≠ r ∧ d.holds renamed = true then d.records.size - 1 else d.records.size := by
  have herased : (d.records.erase r).size + 1 = d.records.size := OrderedMap.size_erase hholds
  rw [moved, OrderedMap.size_insert, OrderedMap.contains_erase]
  by_cases heq : renamed = r
  · simp [heq, herased]
  · cases htaken : d.records.contains renamed with
    | false => simp [holds, heq, htaken, herased]
    | true =>
      simp only [holds, htaken, heq, decide_false, Bool.not_false, Bool.and_true, if_true, ne_eq,
        not_false_eq_true, and_self]
      exact Nat.eq_sub_of_add_eq herased

end Database

namespace Store

variable {s t : Store} {r renamed : RecordRef} {place className id newId : String} {fields : Fields}

/-- The fields of a record in a database. -/
def fieldsOf (s : Store) (place : String) (r : RecordRef) : Option Fields :=
  (s.databases.get? place).bind fun d => d.records.get? r

/-- How many records a database holds. -/
def sizeOf (s : Store) (place : String) : Option Nat :=
  (s.databases.get? place).map fun d => d.records.size

theorem fieldsOf_of_get? {d : Database} (hd : s.databases.get? place = some d) :
    s.fieldsOf place r = d.records.get? r := by
  rw [fieldsOf, hd]
  rfl

theorem isSome_fieldsOf {d : Database} (hd : s.databases.get? place = some d) :
    (s.fieldsOf place r).isSome = d.holds r := by
  rw [fieldsOf_of_get? hd, OrderedMap.get?_isSome]
  rfl

/-- What a visible database holds is visible. -/
theorem visible_of_fieldsOf (hplace : place ∈ s.visible) (hfields : s.fieldsOf place r = some fields) :
    s.Visible r := by
  obtain ⟨d, hd, -⟩ := Option.bind_eq_some_iff.mp hfields
  refine visible_iff.mpr ⟨place, hplace, d, hd, ?_⟩
  rw [← isSome_fieldsOf hd, hfields]
  rfl

/-- A visible database does not hold a record of a visible class in whose way nothing stands. -/
theorem fieldsOf_of_free (hplace : place ∈ s.visible) (hclass : className ∈ s.classes)
    (hfree : s.conflict className id = none) : s.fieldsOf place ⟨className, id⟩ = none := by
  cases hfields : s.fieldsOf place ⟨className, id⟩ with
  | none => rfl
  | some fields =>
    exact absurd (visible_of_fieldsOf hplace hfields) (not_visible_of_conflict hclass hfree)

/-! ### Making records -/

theorem fieldsOf_withRecord {d : Database} (hd : s.databases.get? place = some d) (r : RecordRef)
    (name : String) (x : RecordRef) : (s.withRecord place r).fieldsOf name x
      = if name = place ∧ x = r then some .empty else s.fieldsOf name x := by
  rw [fieldsOf, get?_withRecord]
  by_cases hname : name = place
  · subst hname
    rw [if_pos rfl, hd, fieldsOf_of_get? hd]
    simp [OrderedMap.get?_insert]
  · simp [hname, fieldsOf]

/-- One store comes from another by making a record in a database, and nothing is lost by it. -/
structure Makes (s t : Store) (place : String) (r : RecordRef) : Prop where
  new : s.fieldsOf place r = none
  made : t.fieldsOf place r = some .empty
  kept : ∀ name x fields, s.fieldsOf name x = some fields → t.fieldsOf name x = some fields

/-- Making a record loses nothing exactly where the database does not hold it yet, which is so for
every visible database.  In a database that is not visible the fields that the record had are lost, and
these alone. -/
theorem createRecord_makes_iff (hrun : Store.createRecord place className id s = (.ok r, t)) :
    r = ⟨className, id⟩
      ∧ (s.Makes t place r ↔ s.fieldsOf place r = none)
      ∧ (place ∈ s.visible → s.fieldsOf place r = none)
      ∧ ∀ name x, t.fieldsOf name x
          = if name = place ∧ x = r then some .empty else s.fieldsOf name x := by
  obtain ⟨rfl, rfl, hclass, hfree, hwritable⟩ := createRecord_run hrun
  obtain ⟨d, hd⟩ := get?_of_checkWritable hwritable
  have hafter := fieldsOf_withRecord hd ⟨className, id⟩
  refine ⟨rfl, ⟨Makes.new, fun hnew => ⟨hnew, ?_, fun name x fields hfields => ?_⟩⟩, fun hplace => ?_,
    hafter⟩
  · rw [hafter, if_pos ⟨rfl, rfl⟩]
  · have hother : ¬ (name = place ∧ x = ⟨className, id⟩) := by
      rintro ⟨rfl, rfl⟩
      rw [hnew] at hfields
      cases hfields
    rw [hafter, if_neg hother, hfields]
  · exact fieldsOf_of_free hplace hclass hfree

/-- A database that is not included any more, with a record that has a note. -/
def secluded : Store :=
  after [
    .addSchema "s" {
      classes := [{ name := "A", attributes := [{ name := "note", type := "string" }] }] },
    .addDatabase "far" [],
    .createDatabase "near" ["s", "far"],
    .createRecord "far" "A" "a",
    .write ⟨"A", "a"⟩ "note" ⟨.attribute (.text .string), false⟩ (.text "x"),
    .removeInclude "near" "far"]

def secludedMade (place : String) : Store := (Store.createRecord place "A" "a" secluded).2

theorem createRecord_secluded {place : String} (hplace : place = "far" ∨ place = "near") :
    Store.createRecord place "A" "a" secluded = (.ok ⟨"A", "a"⟩, secludedMade place) := by
  rcases hplace with rfl | rfl <;> exact Prod.ext rfl rfl

/-- The record can be made once more where it is, and loses its note; made in the database that is
visible it is another record, and the note stays. -/
theorem createRecord_makes_iff_secluded :
    (Store.createRecord "far" "A" "a" secluded = (.ok ⟨"A", "a"⟩, secludedMade "far")
        ∧ ¬ secluded.Makes (secludedMade "far") "far" ⟨"A", "a"⟩
        ∧ (secludedMade "far").fieldsOf "far" ⟨"A", "a"⟩ = some .empty)
      ∧ Store.createRecord "near" "A" "a" secluded = (.ok ⟨"A", "a"⟩, secludedMade "near")
      ∧ secluded.Makes (secludedMade "near") "near" ⟨"A", "a"⟩ := by
  obtain ⟨-, hfar, -, hafter⟩ := createRecord_makes_iff (createRecord_secluded (Or.inl rfl))
  obtain ⟨-, hnear, hvisible, -⟩ := createRecord_makes_iff (createRecord_secluded (Or.inr rfl))
  have hheld : (secluded.fieldsOf "far" ⟨"A", "a"⟩).isSome = true := by decide +kernel
  refine ⟨⟨createRecord_secluded (Or.inl rfl), fun hmakes => ?_, ?_⟩,
    createRecord_secluded (Or.inr rfl), hnear.mpr (hvisible (by decide +kernel))⟩
  · rw [hfar.mp hmakes] at hheld
    cases hheld
  · rw [hafter, if_pos ⟨rfl, rfl⟩]

/-- Making a record can write over one that is there. -/
theorem not_makes_of_secluded :
    ¬ ∀ (s t : Store) (place className id : String) (r : RecordRef), s.Reachable →
      Store.createRecord place className id s = (.ok r, t) → s.Makes t place r := by
  intro hclaim
  have hmakes := hclaim secluded _ _ _ _ _ (reachableBy_after fun _ _ => trivial)
    (createRecord_secluded (Or.inl rfl))
  have hheld : (secluded.fieldsOf "far" ⟨"A", "a"⟩).isSome = true := by decide +kernel
  rw [hmakes.new] at hheld
  cases hheld

/-! ### Renaming records -/

theorem sizeOf_withRenamed (hplace : s.location r = some place) :
    (s.withRenamed place r renamed).sizeOf place = s.sizeOf place
      ↔ renamed = r ∨ s.fieldsOf place renamed = none := by
  obtain ⟨d, hd, hholds⟩ := get?_of_location hplace
  have hpos : 0 < d.records.size := by
    have herased := OrderedMap.size_erase hholds
    omega
  have hafter : (s.withRenamed place r renamed).sizeOf place
      = some (d.moved r renamed).records.size := by
    rw [sizeOf, get?_withRenamed, get?_adjust, if_pos rfl, hd]
    simp [Database.retarget]
  have htaken : s.fieldsOf place renamed = none ↔ ¬ d.holds renamed = true := by
    rw [← isSome_fieldsOf hd, Bool.not_eq_true, Option.isSome_eq_false_iff,
      Option.isNone_iff_eq_none]
  rw [hafter, Database.size_moved hholds, sizeOf, hd, Option.map_some, Option.some.injEq, htaken]
  split
  · rename_i hlost
    have hshrinks : d.records.size - 1 ≠ d.records.size := by omega
    simp [hshrinks, hlost.1, hlost.2]
  · rename_i hkept
    simpa [Decidable.not_and_iff_or_not, -not_and] using hkept

theorem fieldsOf_withRenamed (hplace : s.location r = some place) (renamed : RecordRef)
    (name : String) (x : RecordRef) : (s.withRenamed place r renamed).fieldsOf name x
      = if name = place ∧ x = renamed then (s.fieldsOf place r).map (retargetFields r renamed)
        else if name = place ∧ x = r then none
        else (s.fieldsOf name x).map (retargetFields r renamed) := by
  obtain ⟨d, hd, hholds⟩ := get?_of_location hplace
  rw [fieldsOf, get?_withRenamed, get?_adjust]
  by_cases hname : name = place
  · subst hname
    simp only [if_true, hd, Option.map_some, Option.bind_some, true_and, Database.get?_retarget,
      Database.get?_moved hholds, fieldsOf_of_get? hd]
    by_cases hx : x = renamed
    · rw [if_pos hx, if_pos hx]
    · rw [if_neg hx, if_neg hx]
      split <;> rfl
  · simp only [hname, if_false, false_and, fieldsOf]
    cases s.databases.get? name with
    | none => rfl
    | some d' => exact Database.get?_retarget

/-- One store comes from another by giving a record of a database another name, and nothing is lost by
it. -/
structure Renames (s t : Store) (place : String) (r renamed : RecordRef) : Prop where
  /-- The database holds as many records as before. -/
  size : t.sizeOf place = s.sizeOf place
  /-- It holds the record under its new name, with the fields that it had. -/
  moved : t.fieldsOf place renamed = (s.fieldsOf place r).map (retargetFields r renamed)
  /-- Every other record of every database is still stored, with the fields that it had. -/
  kept : ∀ name x fields, ¬ (name = place ∧ x = r) → s.fieldsOf name x = some fields →
    t.fieldsOf name x = some (retargetFields r renamed fields)
  /-- Nothing else is stored. -/
  only : ∀ name x fields, ¬ (name = place ∧ x = renamed) → t.fieldsOf name x = some fields →
    ¬ (name = place ∧ x = r) ∧ (s.fieldsOf name x).isSome = true

/-- Renaming a record loses nothing exactly where its database does not hold another record of the new
name, which is so for every record of a visible class.  Where the class is not visible that other
record is lost, and it alone. -/
theorem renameRecord_renames_iff (hrun : Store.renameRecord r newId s = (.ok renamed, t)) :
    renamed = ⟨r.className, newId⟩ ∧ ∃ place, s.location r = some place
      ∧ (s.Renames t place r renamed ↔ renamed = r ∨ s.fieldsOf place renamed = none)
      ∧ (r.className ∈ s.classes → s.fieldsOf place renamed = none)
      ∧ ∀ name x, t.fieldsOf name x
          = if name = place ∧ x = renamed then (s.fieldsOf place r).map (retargetFields r renamed)
            else if name = place ∧ x = r then none
            else (s.fieldsOf name x).map (retargetFields r renamed) := by
  obtain ⟨rfl, place, hplace, -, hfree, rfl⟩ := renameRecord_run hrun
  have hafter := fieldsOf_withRenamed hplace ⟨r.className, newId⟩
  refine ⟨rfl, place, hplace, ⟨fun hrenames => (sizeOf_withRenamed hplace).mp hrenames.size,
    fun hroom => ⟨(sizeOf_withRenamed hplace).mpr hroom, ?_, ?_, ?_⟩⟩, fun hclass => ?_, hafter⟩
  · rw [hafter, if_pos ⟨rfl, rfl⟩]
  · intro name x fields hother hfields
    -- the new name was free, so that it is not the name of another record
    have hnew : ¬ (name = place ∧ x = ⟨r.className, newId⟩) := by
      rintro ⟨rfl, rfl⟩
      rcases hroom with hsame | hnone
      · exact hother ⟨rfl, hsame⟩
      · rw [hnone] at hfields
        cases hfields
    rw [hafter, if_neg hnew, if_neg hother, hfields]
    rfl
  · intro name x fields hnew hfields
    rw [hafter, if_neg hnew] at hfields
    split at hfields
    · cases hfields
    · rename_i hother
      obtain ⟨before, hbefore, -⟩ := Option.map_eq_some_iff.mp hfields
      exact ⟨hother, by rw [hbefore]; rfl⟩
  · exact fieldsOf_of_free (locate_eq_some hplace).1 hclass hfree

/-- Two records of a class that is not included any more, one of which has a note. -/
def unlisted : Store :=
  after [
    .addSchema "s" {
      classes := [{ name := "A", attributes := [{ name := "note", type := "string" }] }] },
    .createDatabase "d" ["s"],
    .createRecord "d" "A" "a",
    .createRecord "d" "A" "b",
    .write ⟨"A", "b"⟩ "note" ⟨.attribute (.text .string), false⟩ (.text "x"),
    .removeInclude "d" "s"]

def unlistedRenamed (newId : String) : Store := (Store.renameRecord ⟨"A", "a"⟩ newId unlisted).2

theorem renameRecord_unlisted {newId : String} (hid : newId = "b" ∨ newId = "c") :
    Store.renameRecord ⟨"A", "a"⟩ newId unlisted = (.ok ⟨"A", newId⟩, unlistedRenamed newId) := by
  rcases hid with rfl | rfl <;> exact Prod.ext rfl rfl

/-- The record without a note can get the id of the other one, and takes its place; with an id of its own
it leaves the other one alone. -/
theorem renameRecord_renames_iff_unlisted :
    (Store.renameRecord ⟨"A", "a"⟩ "b" unlisted = (.ok ⟨"A", "b"⟩, unlistedRenamed "b")
        ∧ ¬ unlisted.Renames (unlistedRenamed "b") "d" ⟨"A", "a"⟩ ⟨"A", "b"⟩
        ∧ (unlistedRenamed "b").fieldsOf "d" ⟨"A", "b"⟩ = some .empty)
      ∧ Store.renameRecord ⟨"A", "a"⟩ "c" unlisted = (.ok ⟨"A", "c"⟩, unlistedRenamed "c")
      ∧ unlisted.Renames (unlistedRenamed "c") "d" ⟨"A", "a"⟩ ⟨"A", "c"⟩ := by
  obtain ⟨-, place, hplace, htaken, -, hafter⟩ :=
    renameRecord_renames_iff (renameRecord_unlisted (Or.inl rfl))
  obtain ⟨-, place', hplace', hown, -, -⟩ :=
    renameRecord_renames_iff (renameRecord_unlisted (Or.inr rfl))
  have hlocation : unlisted.location ⟨"A", "a"⟩ = some "d" := by decide +kernel
  cases hlocation.symm.trans hplace
  cases hlocation.symm.trans hplace'
  refine ⟨⟨renameRecord_unlisted (Or.inl rfl), fun hrenames => ?_, ?_⟩,
    renameRecord_unlisted (Or.inr rfl), hown.mpr (Or.inr rfl)⟩
  · have hheld : (unlisted.fieldsOf "d" ⟨"A", "b"⟩).isSome = true := by decide +kernel
    rw [(htaken.mp hrenames).resolve_left (by decide)] at hheld
    cases hheld
  · rw [hafter, if_pos ⟨rfl, rfl⟩]
    rfl

/-- Renaming a record can write over another one. -/
theorem not_renames_of_unlisted :
    ¬ ∀ (s t : Store) (r renamed : RecordRef) (newId place : String), s.Reachable →
      Store.renameRecord r newId s = (.ok renamed, t) → s.location r = some place →
      s.Renames t place r renamed := by
  intro hclaim
  have hrenames := hclaim unlisted _ _ _ _ "d" (reachableBy_after fun _ _ => trivial)
    (renameRecord_unlisted (Or.inl rfl)) (by decide +kernel)
  have hfewer : (unlistedRenamed "b").sizeOf "d" ≠ unlisted.sizeOf "d" := by decide +kernel
  exact hfewer hrenames.size

end Store

end RecordGraph
