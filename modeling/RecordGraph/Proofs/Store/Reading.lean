import RecordGraph.Proofs.Store.Integrity

/-!
Reading after writing.  A write chooses the database of a record as a read does, and what it lets a
value refer to is visible to every read.  So a field reads as it was written, and all other fields read
as before.
-/

namespace RecordGraph

namespace Store

variable {s t : Store} {r r' : RecordRef} {name name' place : String}
  {accessor accessor' : Accessor} {v : Value}

/-- Other records, and other fields of the record, read as they did before the write. -/
theorem read_put_of_ne (hplace : s.location r = some place) (hne : r' ≠ r ∨ name' ≠ name) :
    (s.put place r name v).read r' name' accessor' = s.read r' name' accessor' := by
  refine (sameShape_put hplace).read_eq fun place' _ => ?_
  rw [stored_put hplace, if_neg]
  rintro ⟨-, hr, hname⟩
  exact hne.elim (· hr) (· hname)

/-- After a successful write the field reads through the accessor as the value that was written, or as
null or the empty list if it was cleared.  The fields of other records, and other fields of the record,
read as before or fail as before. -/
theorem read_of_write (h : Store.write r name accessor v s = (.ok (), t)) :
    t.read r name accessor
        = .ok (if v.isNull then (if accessor.multi then .list [] else .null) else v)
      ∧ ∀ r' name' accessor', r' ≠ r ∨ name' ≠ name →
        t.read r' name' accessor' = s.read r' name' accessor' := by
  obtain ⟨place, hplace, rfl⟩ := write_run h
  refine ⟨read_put hplace, fun r' name' accessor' hne => ?_⟩
  exact read_put_of_ne (writePlace_eq_ok.mp hplace).1 hne

/-- Two databases that hold one record, with another record in the one that the first includes. -/
def twiceHeld : Store :=
  after [
    .addSchema "s" {
      classes := [{ name := "A", relations := [{ name := "peers", target := "A", multivalue := true }] }] },
    .addDatabase "far" [],
    .createDatabase "near" ["s"],
    .createRecord "far" "A" "a",
    .createRecord "far" "A" "b",
    .createRecord "near" "A" "a",
    .addInclude "near" "far"]

/-- The record refers to the one in the other database. -/
def referring : Store :=
  (Store.write ⟨"A", "a"⟩ "peers" ⟨.object, true⟩ (.list [.record ⟨"A", "b"⟩]) twiceHeld).2

/-- The record does not refer to it any more. -/
def cleared : Store := (Store.write ⟨"A", "a"⟩ "peers" ⟨.object, true⟩ .null referring).2

/-- References to the record of the other database can be written, read and cleared again. -/
theorem read_of_write_twiceHeld :
    Store.write ⟨"A", "a"⟩ "peers" ⟨.object, true⟩ (.list [.record ⟨"A", "b"⟩]) twiceHeld
        = (.ok (), referring)
      ∧ referring.read ⟨"A", "a"⟩ "peers" ⟨.object, true⟩ = .ok (.list [.record ⟨"A", "b"⟩])
      ∧ referring.read ⟨"A", "b"⟩ "peers" ⟨.object, true⟩ = .ok (.list [])
      ∧ Store.write ⟨"A", "a"⟩ "peers" ⟨.object, true⟩ .null referring = (.ok (), cleared)
      ∧ cleared.read ⟨"A", "a"⟩ "peers" ⟨.object, true⟩ = .ok (.list []) := by
  have hrefer : Store.write ⟨"A", "a"⟩ "peers" ⟨.object, true⟩ (.list [.record ⟨"A", "b"⟩]) twiceHeld
      = (.ok (), referring) := rfl
  have hclear : Store.write ⟨"A", "a"⟩ "peers" ⟨.object, true⟩ .null referring = (.ok (), cleared) :=
    rfl
  obtain ⟨hself, hothers⟩ := read_of_write hrefer
  refine ⟨hrefer, hself, ?_, hclear, (read_of_write hclear).1⟩
  rw [hothers _ _ _ (.inl (by decide))]
  rfl

end Store

end RecordGraph
