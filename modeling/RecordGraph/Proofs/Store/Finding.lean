import RecordGraph.Proofs.Store.Lineage

/-!
Finding records.  A record that its class and id lead to is found so, and in the same database,
whatever other records are made or get another id; and when it gets another id itself, it is found
under that.
-/

namespace RecordGraph

namespace Store

variable {s t : Store} {r x : RecordRef} {place newId : String}

/-- A record is what its class and id lead to, and a certain database is where it is. -/
structure FoundIn (s : Store) (r : RecordRef) (place : String) : Prop where
  find : s.find r.className r.id = some r
  location : s.location r = some place

instance (s : Store) (r : RecordRef) (place : String) : Decidable (s.FoundIn r place) :=
  decidable_of_iff (s.find r.className r.id = some r ∧ s.location r = some place)
    ⟨fun h => ⟨h.1, h.2⟩, fun h => ⟨h.find, h.location⟩⟩

/-- A visible record is found if no other one with its id is of a derived class. -/
theorem foundIn_of_only (hclass : r.className ∈ s.classes) (hplace : s.location r = some place)
    (honly : ∀ c ∈ s.classes, s.hierarchy.isA c r.className = true → s.Visible ⟨c, r.id⟩ →
      c = r.className) : s.FoundIn r place := by
  refine ⟨?_, hplace⟩
  have hsome : (s.find r.className r.id).isSome = true :=
    find_isSome_iff.mpr ⟨r.className, hclass, Hierarchy.isA_refl _ _, visible_of_location hplace⟩
  obtain ⟨⟨c, i⟩, hx⟩ := Option.isSome_iff_exists.mp hsome
  obtain ⟨hvisible, rfl, hisA, hdeclared⟩ := find_eq_some hx
  rw [hx, honly c hdeclared hisA hvisible]

namespace FoundIn

variable (h : s.FoundIn r place)

include h

theorem mem_classes : r.className ∈ s.classes := (find_eq_some h.find).2.2.2

theorem visible : s.Visible r := visible_of_location h.location

theorem sameShape (hshape : s.SameShape t) : t.FoundIn r place :=
  ⟨by rw [hshape.find, h.find], by rw [hshape.location, h.location]⟩

/-- A record is found as before if no other one with its id and of a derived class comes to be
visible. -/
theorem of_visible (hscope : s.SameScope t) (hplace : t.location r = some place)
    (hvisible : ∀ c, s.hierarchy.isA c r.className = true → t.Visible ⟨c, r.id⟩ →
      s.Visible ⟨c, r.id⟩) : t.FoundIn r place := by
  refine ⟨?_, hplace⟩
  have hfind := h.find
  unfold Store.find Store.lookup at hfind ⊢
  rw [hscope.classes, hscope.hierarchy]
  obtain ⟨-, before, after, hsplit, hbefore⟩ := List.find?_eq_some_iff_append.mp hfind
  refine List.find?_eq_some_iff_append.mpr
    ⟨visible_of_location hplace, before, after, hsplit, fun y hy => ?_⟩
  have hmem := hsplit ▸ List.mem_append_left _ hy
  obtain ⟨c, hc, rfl⟩ := List.mem_map.mp hmem
  have hisA := (List.mem_filter.mp hc).2
  have hnot := hbefore _ hy
  rw [Bool.not_eq_true'] at hnot ⊢
  rw [Bool.eq_false_iff] at hnot ⊢
  exact fun hseen => hnot (hvisible c hisA hseen)

/-- Whatever comes to be visible where nothing conflicts with it is out of the way. -/
theorem of_free (hscope : s.SameScope t) (hplace : t.location r = some place)
    (hfree : s.conflict x.className x.id = none) (hvisible : ∀ y, t.Visible y → y = x ∨ s.Visible y) :
    t.FoundIn r place := by
  refine h.of_visible hscope hplace fun c hisA hc => ?_
  rcases hvisible _ hc with rfl | hc
  · exact absurd (Or.inr hisA) (unrelated_of_conflict hfree h.visible h.mem_classes rfl)
  · exact hc

/-- A record that is made leaves it where it is. -/
theorem withRecord {other : String} (hclass : x.className ∈ s.classes)
    (hfree : s.conflict x.className x.id = none) : (s.withRecord other x).FoundIn r place := by
  have hne : r ≠ x := fun heq => not_visible_of_conflict hclass hfree (heq ▸ h.visible)
  refine h.of_free (sameScope_withRecord s other x) ?_ hfree fun y => visible_withRecord
  rw [location_withRecord hne, h.location]

/-- Another record that gets another id leaves it where it is. -/
theorem withRenamed_other {other : String} (hx : s.location x = some other)
    (hclass : x.className ∈ s.classes) (hfree : s.conflict x.className newId = none) (hne : r ≠ x) :
    (s.withRenamed other x ⟨x.className, newId⟩).FoundIn r place := by
  have hnew : r ≠ ⟨x.className, newId⟩ :=
    fun heq => not_visible_of_conflict hclass hfree (heq ▸ h.visible)
  refine h.of_free (x := ⟨x.className, newId⟩) (sameScope_withRenamed s other x _) ?_ hfree
    fun y => visible_withRenamed hx
  rw [location_withRenamed hx hne hnew, h.location]

/-- With another id it is found under that. -/
theorem withRenamed (hfree : s.conflict r.className newId = none) :
    (s.withRenamed place r ⟨r.className, newId⟩).FoundIn ⟨r.className, newId⟩ place := by
  have hscope := sameScope_withRenamed s place r ⟨r.className, newId⟩
  have hnew := not_visible_of_conflict h.mem_classes hfree
  refine foundIn_of_only ?_ (location_withRenamed_self h.location hnew) fun c hc hisA hvisible => ?_
  · rw [hscope.classes]
    exact h.mem_classes
  · rw [hscope.classes] at hc
    rw [hscope.hierarchy] at hisA
    rcases visible_withRenamed h.location hvisible with heq | hbefore
    · exact congrArg RecordRef.className heq
    · exact absurd (Or.inl hisA) (unrelated_of_conflict hfree hbefore hc rfl)

end FoundIn

end Store

end RecordGraph
