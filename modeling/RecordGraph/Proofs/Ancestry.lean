import RecordGraph.Proofs.Visit
import RecordGraph.Registry.ClassType
import RecordGraph.Schema.Hierarchy

/-!
Ancestry in a hierarchy and in the types derived from it.  A class is another one or derives from it
exactly when the graph of direct superclasses leads there.  A type that shows the hierarchy belongs to
the classes that its class belongs to, and these are the names it lists.
-/

namespace RecordGraph

namespace NameGraph

theorem Leads.head {g : NameGraph} {a b c : String} (hstep : g.Step a b) (hbc : g.Leads b c) :
    g.Leads a c :=
  Leads.trans (.tail (.refl a) hstep) hbc

theorem leads_iff {g : NameGraph} {a c : String} :
    g.Leads a c ↔ a = c ∨ ∃ b, g.Step a b ∧ g.Leads b c := by
  constructor
  · intro h
    induction h with
    | refl => exact Or.inl rfl
    | tail _ hstep ih =>
      rcases ih with rfl | ⟨d, hfirst, hrest⟩
      · exact Or.inr ⟨_, hstep, .refl _⟩
      · exact Or.inr ⟨d, hfirst, .tail hrest hstep⟩
  · rintro (rfl | ⟨b, hstep, hrest⟩)
    · exact .refl a
    · exact .head hstep hrest

end NameGraph

namespace Hierarchy

variable {h : Hierarchy} {a b c : String} {d : ClassDeclaration}

theorem declaration_eq_ok : h.declaration a = .ok d ↔ h.classes.get? a = some d := by
  unfold declaration
  cases h.classes.get? a <;> simp

theorem step_superGraph :
    h.superGraph.Step a b ↔ ∃ d, h.classes.get? a = some d ∧ b ∈ d.superclasses := by
  unfold NameGraph.Step NameGraph.next superGraph
  rw [OrderedMap.get?_mapValues]
  cases h.classes.get? a <;> simp

theorem isA_iff_leads : h.isA a b = true ↔ h.superGraph.Leads a b := by
  rw [NameGraph.leads_iff]
  unfold isA ancestors declaration
  cases hdeclared : h.classes.get? a with
  | none => simp [step_superGraph, hdeclared, bind, Except.bind]
  | some d =>
    simp [step_superGraph, hdeclared, bind, Except.bind, pure, Except.pure, NameGraph.mem_reach_iff]

@[simp] theorem isA_refl (h : Hierarchy) (a : String) : h.isA a a = true :=
  isA_iff_leads.mpr (.refl a)

theorem isA_trans (hab : h.isA a b = true) (hbc : h.isA b c = true) : h.isA a c = true :=
  isA_iff_leads.mpr ((isA_iff_leads.mp hab).trans (isA_iff_leads.mp hbc))

end Hierarchy

namespace ClassType

/-! ### The names of a type -/

theorem mem_collectNames_of_mem (waiting : List ClassType) (seen : List String) {n : String}
    (hn : n ∈ seen) : n ∈ collectNames waiting seen := by
  fun_induction collectNames waiting seen with
  | case1 => exact hn
  | case2 _ _ _ _ ih => exact ih hn
  | case3 _ _ _ _ ih => exact ih (List.mem_append_left _ hn)

theorem collectNames_sound (P : ClassType → Prop) (closed : ∀ t, P t → ∀ b ∈ t.bases, P b)
    (waiting : List ClassType) (seen : List String) (hwaiting : ∀ t ∈ waiting, P t) {n : String}
    (hn : n ∈ collectNames waiting seen) : n ∈ seen ∨ ∃ t, P t ∧ t.name = n := by
  fun_induction collectNames waiting seen with
  | case1 => exact Or.inl hn
  | case2 t waiting seen _ ih => exact ih (fun u hu => hwaiting u (List.mem_cons_of_mem t hu)) hn
  | case3 t waiting seen _ ih =>
    have ht : P t := hwaiting t List.mem_cons_self
    have hnext : ∀ u ∈ waiting ++ t.bases, P u := by
      intro u hu
      rcases List.mem_append.mp hu with hu | hu
      · exact hwaiting u (List.mem_cons_of_mem t hu)
      · exact closed t ht u hu
    rcases ih hnext hn with hn | hn
    · rcases List.mem_append.mp hn with hn | hn
      · exact Or.inl hn
      · exact Or.inr ⟨t, ht, (List.mem_singleton.mp hn).symm⟩
    · exact Or.inr hn

theorem name_mem_names (t : ClassType) : t.name ∈ t.names := by
  unfold names
  rw [collectNames]
  exact mem_collectNames_of_mem _ _ (by simp)

/-- A type shows a hierarchy: its bases are types for the direct superclasses that the hierarchy
gives its class, and show the hierarchy themselves. -/
inductive Shows (h : Hierarchy) : ClassType → Prop
  | intro {t : ClassType} {d : ClassDeclaration} (declared : h.classes.get? t.name = some d)
      (superclasses : t.bases.map name = d.superclasses) (above : ∀ b ∈ t.bases, Shows h b) :
      Shows h t

theorem Shows.above {h : Hierarchy} {t : ClassType} (ht : t.Shows h) : ∀ b ∈ t.bases, b.Shows h := by
  cases ht with
  | intro _ _ habove => exact habove

theorem Shows.step {h : Hierarchy} {t b : ClassType} (ht : t.Shows h) (hb : b ∈ t.bases) :
    h.superGraph.Step t.name b.name := by
  cases ht with
  | intro hdeclared hsuper _ =>
    exact Hierarchy.step_superGraph.mpr ⟨_, hdeclared, hsuper ▸ List.mem_map_of_mem hb⟩

theorem Shows.isA_of_mem_names {h : Hierarchy} {t : ClassType} (ht : t.Shows h) {n : String}
    (hn : n ∈ t.names) : h.isA t.name n = true := by
  have hsound := collectNames_sound (fun u => u.Shows h ∧ h.superGraph.Leads t.name u.name)
    (fun u hu b hb => ⟨hu.1.above b hb, .tail hu.2 (hu.1.step hb)⟩) [t] []
    (fun u hu => by
      obtain rfl := List.mem_singleton.mp hu
      exact ⟨ht, .refl _⟩) hn
  rcases hsound with hn | ⟨u, hu, rfl⟩
  · simp at hn
  · exact Hierarchy.isA_iff_leads.mpr hu.2

theorem Shows.exists_base {h : Hierarchy} {t : ClassType} (ht : t.Shows h) {n : String}
    (hn : h.superGraph.Step t.name n) : ∃ b ∈ t.bases, b.name = n := by
  cases ht with
  | intro hdeclared hsuper _ =>
    obtain ⟨d, hd, hn⟩ := Hierarchy.step_superGraph.mp hn
    obtain rfl := Option.some.inj (hdeclared.symm.trans hd)
    rw [← hsuper] at hn
    exact List.mem_map.mp hn

/-- A type belongs to a class exactly when the hierarchy says so of its class. -/
theorem Shows.isA_iff {h : Hierarchy} {t : ClassType} (ht : t.Shows h) {n : String} :
    t.isA n = true ↔ h.isA t.name n = true := by
  rw [Hierarchy.isA_iff_leads]
  induction ht with
  | @intro t d hdeclared hsuper habove ih =>
    have ht : t.Shows h := .intro hdeclared hsuper habove
    rw [ClassType.isA_iff, NameGraph.leads_iff]
    constructor
    · rintro (hname | ⟨b, hb, hisA⟩)
      · exact Or.inl hname
      · exact Or.inr ⟨b.name, ht.step hb, (ih b hb).mp hisA⟩
    · rintro (hname | ⟨m, hstep, hleads⟩)
      · exact Or.inl hname
      · obtain ⟨b, hb, rfl⟩ := ht.exists_base hstep
        exact Or.inr ⟨b, hb, (ih b hb).mpr hleads⟩

/-- What a collected name leads to is collected as well, if it waits where it was not seen: that some
other type of the name was taken up does not matter, as the name alone says which bases there are. -/
theorem collectNames_closed {P : ClassType → Prop} {step : String → String → Prop}
    (closed : ∀ t, P t → ∀ b ∈ t.bases, P b)
    (based : ∀ t, P t → ∀ n, step t.name n → ∃ b ∈ t.bases, b.name = n)
    (waiting : List ClassType) (seen : List String) (hwaiting : ∀ t ∈ waiting, P t)
    (hseen : ∀ a ∈ seen, ∀ b, step a b → b ∈ seen ∨ ∃ u ∈ waiting, u.name = b) :
    ∀ a ∈ collectNames waiting seen, ∀ b, step a b → b ∈ collectNames waiting seen := by
  fun_induction collectNames waiting seen with
  | case1 seen => simpa using hseen
  | case2 t waiting seen hold ih =>
    refine ih (fun u hu => hwaiting u (List.mem_cons_of_mem t hu)) fun a ha b hab => ?_
    rcases hseen a ha b hab with hb | ⟨u, hu, rfl⟩
    · exact Or.inl hb
    · rcases List.mem_cons.mp hu with rfl | hu
      · exact Or.inl hold
      · exact Or.inr ⟨u, hu, rfl⟩
  | case3 t waiting seen hnew ih =>
    have ht := hwaiting t List.mem_cons_self
    refine ih (fun u hu => ?_) fun a ha b hab => ?_
    · rcases List.mem_append.mp hu with hu | hu
      · exact hwaiting u (List.mem_cons_of_mem t hu)
      · exact closed t ht u hu
    · rcases List.mem_append.mp ha with ha | ha
      · rcases hseen a ha b hab with hb | ⟨u, hu, rfl⟩
        · exact Or.inl (List.mem_append_left _ hb)
        · rcases List.mem_cons.mp hu with rfl | hu
          · exact Or.inl (List.mem_append_right _ List.mem_cons_self)
          · exact Or.inr ⟨u, List.mem_append_left _ hu, rfl⟩
      · obtain rfl := List.mem_singleton.mp ha
        obtain ⟨u, hu, rfl⟩ := based t ht b hab
        exact Or.inr ⟨u, List.mem_append_right _ hu, rfl⟩

/-- The names of a type are closed under steps that the name of a type allows. -/
theorem names_closed {P : ClassType → Prop} {R : String → String → Prop} {t : ClassType}
    (closed : ∀ t, P t → ∀ b ∈ t.bases, P b)
    (based : ∀ t, P t → ∀ n, R t.name n → ∃ b ∈ t.bases, b.name = n) (ht : P t) :
    ∀ a ∈ t.names, ∀ b, R a b → b ∈ t.names :=
  collectNames_closed closed based [t] [] (fun _ hu => List.mem_singleton.mp hu ▸ ht) (by simp)

/-- The names of a type are the classes that the hierarchy says its class belongs to. -/
theorem Shows.mem_names_iff {h : Hierarchy} {t : ClassType} (ht : t.Shows h) {n : String} :
    n ∈ t.names ↔ h.isA t.name n = true := by
  refine ⟨ht.isA_of_mem_names, fun hn => ?_⟩
  have hclosed := names_closed (fun _ hu => hu.above) (fun _ hu _ => hu.exists_base) ht
  induction Hierarchy.isA_iff_leads.mp hn with
  | refl => exact t.name_mem_names
  | tail hleads hstep ih =>
    exact hclosed _ (ih (Hierarchy.isA_iff_leads.mpr hleads)) _ hstep

end ClassType

end RecordGraph
