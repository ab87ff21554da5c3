import RecordGraph.Proofs.Store.Integrity

/-!
Which databases hold which records.  Making, removing and renaming a record changes what one database
holds, and so where records are and which of them are visible.
-/

namespace RecordGraph

namespace Store

variable {s t : Store} {r x : RecordRef} {place : String}

/-- Whether a database holds a record. -/
def holdsIn (s : Store) (place : String) (r : RecordRef) : Bool :=
  match s.databases.get? place with
  | some d => d.holds r
  | none => false

theorem holdsIn_iff :
    s.holdsIn place r = true ↔ ∃ d, s.databases.get? place = some d ∧ d.holds r = true := by
  unfold holdsIn
  cases s.databases.get? place <;> simp

theorem visible_iff_holdsIn : s.Visible r ↔ ∃ name ∈ s.visible, s.holdsIn name r = true := by
  simp only [visible_iff, holdsIn_iff]

theorem locate_eq_find? (s : Store) (scope : List String) (r : RecordRef) :
    s.locate scope r = scope.find? fun name => s.holdsIn name r := rfl

/-! ### Where a record is -/

theorem visible_of_location (h : s.location r = some place) : s.Visible r := by
  rw [Visible, h]
  rfl

theorem holdsIn_of_location (h : s.location r = some place) :
    place ∈ s.visible ∧ s.holdsIn place r = true := by
  obtain ⟨hplace, hholds⟩ := locate_eq_some h
  exact ⟨hplace, holdsIn_iff.mpr hholds⟩

/-- Databases of which the same hold a record hold it first in the same place. -/
theorem location_congr (hscope : s.SameScope t) (hholds : ∀ name, t.holdsIn name r = s.holdsIn name r) :
    t.location r = s.location r := by
  simp only [location, locate_eq_find?, hholds, hscope.visible]

/-- A record that only one visible database holds is there. -/
theorem location_of_only (hplace : place ∈ s.visible)
    (hholds : ∀ name ∈ s.visible, s.holdsIn name r = true ↔ name = place) :
    s.location r = some place := by
  have hsome : (s.location r).isSome = true :=
    visible_iff_holdsIn.mpr ⟨place, hplace, (hholds place hplace).mpr rfl⟩
  obtain ⟨name, hname⟩ := Option.isSome_iff_exists.mp hsome
  obtain ⟨hmem, hheld⟩ := holdsIn_of_location hname
  rw [hname, (hholds name hmem).mp hheld]

/-- A record that is visible after a record was made is the new one, or was visible before. -/
theorem visible_withRecord (h : (s.withRecord place r).Visible x) : x = r ∨ s.Visible x := by
  by_cases heq : x = r
  · exact Or.inl heq
  · rw [Visible, location_withRecord heq] at h
    exact Or.inr h

/-! ### Removed records -/

/-- The store without a record of a database. -/
def erased (s : Store) (place : String) (r : RecordRef) : Store :=
  s.adjust place fun d => { d with records := d.records.erase r }

theorem holdsIn_erased {name : String} :
    (s.erased place r).holdsIn name x = true
      ↔ s.holdsIn name x = true ∧ ¬ (name = place ∧ x = r) := by
  rw [holdsIn, holdsIn, erased, get?_adjust]
  by_cases heq : name = place
  · subst heq
    rw [if_pos rfl]
    cases s.databases.get? name with
    | none => simp
    | some d => simp [Database.holds, OrderedMap.contains_erase, and_comm]
  · rw [if_neg heq]
    simp [heq]

theorem visible_erased_iff :
    (s.erased place r).Visible x
      ↔ ∃ name ∈ s.visible, s.holdsIn name x = true ∧ ¬ (name = place ∧ x = r) := by
  rw [visible_iff_holdsIn, erased, (sameScope_erased s place r).visible]
  exact exists_congr fun name => and_congr_right fun _ => holdsIn_erased

theorem visible_erased (h : (s.erased place r).Visible x) : s.Visible x := by
  obtain ⟨name, hname, hholds, -⟩ := visible_erased_iff.mp h
  exact visible_iff_holdsIn.mpr ⟨name, hname, hholds⟩

/-! ### Renamed records -/

theorem holdsIn_withRenamed {renamed : RecordRef} {name : String} (hplace : s.location r = some place) :
    (s.withRenamed place r renamed).holdsIn name x
      = if name = place ∧ x = renamed then true
        else if name = place ∧ x = r then false else s.holdsIn name x := by
  obtain ⟨d, hd, -⟩ := get?_of_location hplace
  rw [holdsIn, holdsIn, get?_withRenamed, get?_adjust]
  by_cases hname : name = place
  · subst hname
    simp only [if_true, hd, Option.map_some, Database.holds_retarget, true_and]
    rw [Database.holds, Database.moved, OrderedMap.contains_insert, OrderedMap.contains_erase]
    by_cases hx : x = renamed
    · simp [hx]
    · by_cases hr : x = r <;> simp [hx, hr, Database.holds]
  · simp only [hname, if_false, false_and]
    cases s.databases.get? name with
    | none => rfl
    | some d' => exact Database.holds_retarget

theorem location_withRenamed {renamed : RecordRef} (hplace : s.location r = some place) (hr : x ≠ r)
    (hrenamed : x ≠ renamed) :
    (s.withRenamed place r renamed).location x = s.location x := by
  refine location_congr (sameScope_withRenamed s place r renamed) fun name => ?_
  rw [holdsIn_withRenamed hplace, if_neg fun h => hrenamed h.2, if_neg fun h => hr h.2]

/-- A record that gets an id which is not visible stays in its database. -/
theorem location_withRenamed_self {renamed : RecordRef} (hplace : s.location r = some place)
    (hnew : ¬ s.Visible renamed) :
    (s.withRenamed place r renamed).location renamed = some place := by
  have hscope := sameScope_withRenamed s place r renamed
  refine location_of_only (hscope.visible ▸ (holdsIn_of_location hplace).1) fun name hname => ?_
  rw [hscope.visible] at hname
  have hnot : ¬ s.holdsIn name renamed = true :=
    fun hholds => hnew (visible_iff_holdsIn.mpr ⟨name, hname, hholds⟩)
  rw [holdsIn_withRenamed hplace]
  by_cases heq : name = place
  · simp [heq]
  · simp [heq, hnot]

theorem visible_withRenamed {renamed : RecordRef} (hplace : s.location r = some place)
    (h : (s.withRenamed place r renamed).Visible x) : x = renamed ∨ s.Visible x := by
  obtain ⟨name, hname, hholds⟩ := visible_iff_holdsIn.mp h
  rw [(sameScope_withRenamed s place r renamed).visible] at hname
  rw [holdsIn_withRenamed hplace] at hholds
  split at hholds
  · rename_i hnew
    exact Or.inl hnew.2
  · split at hholds
    · cases hholds
    · exact Or.inr (visible_iff_holdsIn.mpr ⟨name, hname, hholds⟩)

end Store

end RecordGraph
