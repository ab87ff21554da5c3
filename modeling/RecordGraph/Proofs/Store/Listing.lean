import RecordGraph.Proofs.Store.Operation

/-!
Looking records up and listing them.  A look-up goes through the visible classes and asks the visible
databases for one key after the other; a listing goes through the visible databases and asks for the
class of one key after the other.  Both come to the visible records of a class and of the classes that
derive from it.
-/

namespace RecordGraph

namespace Store

variable {s : Store} {r : RecordRef} {className id : String} {rs : List RecordRef}

theorem testRecord_iff : s.testRecord className id = true ↔ ∃ r, s.getRecord className id = .ok r := by
  simp only [testRecord, getRecord_eq_ok, Option.isSome_iff_exists]

/-- What a look-up finds is listed. -/
theorem mem_records_of_getRecord (hrs : s.records className = .ok rs)
    (hr : s.getRecord className id = .ok r) : r ∈ rs ∧ r.id = id := by
  obtain ⟨hvisible, hid, hisA, hclass⟩ := find_eq_some (getRecord_eq_ok.mp hr)
  exact ⟨(mem_records_iff hrs).mpr ⟨⟨hvisible, hclass⟩, hisA⟩, hid⟩

/-- Something is found for the id of a listed record. -/
theorem getRecord_of_mem_records (hrs : s.records className = .ok rs) (hr : r ∈ rs) :
    ∃ found, s.getRecord className r.id = .ok found := by
  obtain ⟨hlisted, hisA⟩ := (mem_records_iff hrs).mp hr
  rw [← testRecord_iff]
  exact find_isSome_iff.mpr ⟨r.className, hlisted.className, hisA, hlisted.visible⟩

/-- Testing for a record, getting it and finding its id in the listing of a visible class agree, and the
record that is got is listed.  The listing has every visible record whose class is visible and is the
class or derives from it, each once. -/
theorem lookup_agrees_with_listing (s : Store) (hclass : className ∈ s.classes) :
    ∃ rs, s.records className = .ok rs
      ∧ (∀ id, (s.testRecord className id = true ↔ ∃ r, s.getRecord className id = .ok r)
        ∧ ((∃ r, s.getRecord className id = .ok r) ↔ ∃ r ∈ rs, r.id = id)
        ∧ ∀ r, s.getRecord className id = .ok r → r ∈ rs ∧ r.id = id)
      ∧ rs.Nodup
      ∧ ∀ r, r ∈ rs ↔ s.Listed r ∧ s.hierarchy.superGraph.Leads r.className className := by
  obtain ⟨rs, hrs⟩ := records_ok_iff.mpr hclass
  refine ⟨rs, hrs, fun id => ⟨testRecord_iff, ⟨?_, ?_⟩, fun r => mem_records_of_getRecord hrs⟩,
    nodup_records hrs, fun r => ?_⟩
  · rintro ⟨r, hr⟩
    exact ⟨r, mem_records_of_getRecord hrs hr⟩
  · rintro ⟨r, hr, rfl⟩
    exact getRecord_of_mem_records hrs hr
  · rw [mem_records_iff hrs, Hierarchy.isA_iff_leads]

/-- Two classes that derive from each other, and one that is not visible any more with its record.  Both
databases hold one of the records, which the first one was given while the other was not visible. -/
def cyclicShadowed : Store :=
  after [
    .addSchema "s" {
      classes := [{ name := "A", superclasses := ["B"] }, { name := "B", superclasses := ["A", "D"] }] },
    .addSchema "other" { classes := [{ name := "C", superclasses := ["A"] }] },
    .addDatabase "far" [],
    .createDatabase "near" ["s", "other"],
    .createRecord "far" "B" "x",
    .createRecord "far" "A" "x",
    .createRecord "near" "B" "x",
    .createRecord "near" "C" "c",
    .load "far",
    .removeInclude "near" "other"]

/-- The record that both databases hold is listed once, beside another one with its id, and the record of
the class that is not visible can neither be listed nor found. -/
theorem lookup_agrees_with_listing_cyclicShadowed :
    "A" ∈ cyclicShadowed.classes ∧ ∃ rs, cyclicShadowed.records "A" = .ok rs ∧ rs.Nodup
      ∧ ⟨"A", "x"⟩ ∈ rs ∧ ⟨"B", "x"⟩ ∈ rs ∧ ⟨"C", "c"⟩ ∉ rs
      ∧ (∃ r ∈ rs, cyclicShadowed.getRecord "A" "x" = .ok r)
      ∧ cyclicShadowed.testRecord "A" "c" = false := by
  have hclass : "A" ∈ cyclicShadowed.classes := by decide +kernel
  obtain ⟨rs, hrs, hagree, hnodup, hmem⟩ := lookup_agrees_with_listing cyclicShadowed hclass
  have hx : ⟨"A", "x"⟩ ∈ rs := (hmem _).mpr
    ⟨⟨by decide +kernel, hclass⟩, Hierarchy.isA_iff_leads.mp (Hierarchy.isA_refl _ _)⟩
  have hx' : ⟨"B", "x"⟩ ∈ rs := (hmem _).mpr
    ⟨⟨by decide +kernel, by decide +kernel⟩, Hierarchy.isA_iff_leads.mp (by decide +kernel)⟩
  have hlisted : ∀ r ∈ rs, r.className ∈ cyclicShadowed.classes := fun r hr => ((hmem r).mp hr).1.className
  obtain ⟨r, hr⟩ := (hagree "x").2.1.mpr ⟨_, hx, rfl⟩
  exact ⟨hclass, rs, hrs, hnodup, hx, hx', fun hc => absurd (hlisted _ hc) (by decide +kernel),
    ⟨r, ((hagree "x").2.2 r hr).1, hr⟩, by decide +kernel⟩

end Store

end RecordGraph
