import RecordGraph.Proofs.Ancestry
import RecordGraph.Proofs.Computation
import RecordGraph.Proofs.OrderedMap
import RecordGraph.Schema.ClassSchema

/-!
Loaded schemas.  The schema of a class says what the hierarchy says about it: it has the name and the
direct superclasses of the class, lists every field under the name of the field, and only fields that
the class declares or inherits.
-/

namespace RecordGraph

open RecordGraph.Computation

namespace ClassSchema

variable {h : Hierarchy} {c name : String} {s : ClassSchema}

/-- The schema that a class of a hierarchy has. -/
def LoadedFrom (h : Hierarchy) (c : String) (s : ClassSchema) : Prop := (load h c []).1 = .ok s

theorem LoadedFrom.eq {t : ClassSchema} (hs : LoadedFrom h c s) (ht : LoadedFrom h c t) : s = t :=
  Except.ok.inj (hs.symm.trans ht)

theorem bindAttribute_name {d : AttributeDeclaration} {a : Attribute} {ws ws' : List Warning}
    (hrun : bindAttribute c d ws = (.ok a, ws')) : a.name = d.name := by
  obtain ⟨⟨bound, reported⟩, ws₁, hbind, hrest⟩ := bind_eq_ok.mp hrun
  rw [ofExcept_apply] at hbind
  obtain ⟨hbind, -⟩ := Prod.mk.inj hbind
  obtain ⟨_, _, _, hbound⟩ := bind_eq_ok.mp hrest
  obtain ⟨hbound, -⟩ := Prod.mk.inj hbound
  cases hbound
  unfold Attribute.ofDeclaration at hbind
  split at hbind
  · simp only [bind, Except.bind, Attribute.bind] at hbind
    split at hbind
    · simp at hbind
    · split at hbind
      · split at hbind <;> (cases hbind; rfl)
      · cases hbind
        rfl
  · simp [bind, Except.bind] at hbind

/-- Loading goes through the declared attributes and relations of the class and its lineage. -/
theorem LoadedFrom.parts (hs : LoadedFrom h c s) :
    ∃ attributeDeclarations relationDeclarations attributes ws,
      h.attributes c true = .ok attributeDeclarations ∧ h.relations c true = .ok relationDeclarations
      ∧ attributeDeclarations.mapM (bindAttribute c) [] = (.ok attributes, ws)
      ∧ h.superclasses c false = .ok s.superclasses ∧ h.ancestors c = .ok s.ancestors ∧ s.name = c
      ∧ s.attributes = .ofList (attributes.map fun a => (a.name, a))
      ∧ s.relations
        = .ofList (relationDeclarations.map fun d => (d.name, Relation.ofDeclaration d)) := by
  unfold LoadedFrom at hs
  cases hrun : load h c [] with
  | mk result ws =>
    rw [hrun] at hs
    obtain rfl : result = .ok s := hs
    obtain ⟨attributeDeclarations, ws₁, hdeclared, hrun⟩ := bind_eq_ok.mp hrun
    rw [ofExcept_apply] at hdeclared
    obtain ⟨hattributes, rfl⟩ := Prod.mk.inj hdeclared
    obtain ⟨attributes, ws₂, hbound, hrun⟩ := bind_eq_ok.mp hrun
    obtain ⟨relationDeclarations, ws₃, hrelations, hrun⟩ := bind_eq_ok.mp hrun
    rw [ofExcept_apply] at hrelations
    obtain ⟨hrelations, -⟩ := Prod.mk.inj hrelations
    obtain ⟨superclasses, ws₄, hsuper, hrun⟩ := bind_eq_ok.mp hrun
    rw [ofExcept_apply] at hsuper
    obtain ⟨hsuper, -⟩ := Prod.mk.inj hsuper
    obtain ⟨ancestors, ws₅, habove, hrun⟩ := bind_eq_ok.mp hrun
    rw [ofExcept_apply] at habove
    obtain ⟨habove, -⟩ := Prod.mk.inj habove
    obtain ⟨_, _, _, hrun⟩ := bind_eq_ok.mp hrun
    obtain ⟨_, _, _, hrun⟩ := bind_eq_ok.mp hrun
    obtain ⟨heq, -⟩ := Prod.mk.inj hrun
    cases heq
    exact ⟨_, _, _, _, hattributes, hrelations, hbound, hsuper, habove, rfl, rfl, rfl⟩

theorem LoadedFrom.name_eq (hs : LoadedFrom h c s) : s.name = c := by
  obtain ⟨_, _, _, _, _, _, _, _, _, hname, _⟩ := hs.parts
  exact hname

theorem LoadedFrom.declared (hs : LoadedFrom h c s) :
    ∃ d, h.classes.get? c = some d ∧ s.superclasses = d.superclasses := by
  obtain ⟨_, _, _, _, _, _, _, hsuper, _⟩ := hs.parts
  unfold Hierarchy.superclasses Hierarchy.declaration at hsuper
  cases hget : h.classes.get? c with
  | none => simp [hget, bind, Except.bind] at hsuper
  | some d =>
    simp only [hget, bind, Except.bind, pure, Except.pure] at hsuper
    exact ⟨d, rfl, (Except.ok.inj hsuper).symm⟩

/-- The schema lists the ancestors that the hierarchy gives its class. -/
theorem LoadedFrom.isA_eq (hs : LoadedFrom h c s) (n : String) : s.isA n = h.isA c n := by
  obtain ⟨_, _, _, _, _, _, _, _, habove, hname, _⟩ := hs.parts
  unfold isA Hierarchy.isA
  rw [hname, habove]

/-- A class is only loaded where all of its ancestors are visible. -/
theorem LoadedFrom.visible (hs : LoadedFrom h c s) {n : String} (hn : h.isA c n = true) :
    ∃ d, h.classes.get? n = some d := by
  obtain ⟨_, _, _, _, hattributes, _, _, _, habove, _⟩ := hs.parts
  obtain ⟨line, hline, -⟩ := except_bind_eq_ok.mp hattributes
  obtain ⟨own, hown, hline⟩ := except_bind_eq_ok.mp hline
  obtain ⟨names, hnames, hline⟩ := except_bind_eq_ok.mp hline
  obtain ⟨above, hmapM, -⟩ := except_bind_eq_ok.mp hline
  rw [Hierarchy.isA, hnames, Bool.or_eq_true] at hn
  rcases hn with hn | hn
  · exact ⟨own, beq_iff_eq.mp hn ▸ Hierarchy.declaration_eq_ok.mp hown⟩
  · have hmem : h.declaration n ∈ above.map .ok :=
      except_mapM_eq_ok.mp hmapM ▸ List.mem_map_of_mem (List.contains_iff_mem.mp hn)
    obtain ⟨d, -, hd⟩ := List.mem_map.mp hmem
    exact ⟨d, Hierarchy.declaration_eq_ok.mp hd.symm⟩

/-- Every bound attribute comes from a declared one. -/
theorem LoadedFrom.bound {a : Attribute} (hs : LoadedFrom h c s)
    (ha : s.attribute? name = some a) :
    ∃ d ws ws', bindAttribute c d ws = (.ok a, ws') ∧
      ∃ declarations, h.attributes c true = .ok declarations ∧ d ∈ declarations := by
  obtain ⟨declarations, _, attributes, ws, hdeclarations, _, hbound, _, _, _, heq, _⟩ := hs.parts
  unfold attribute? at ha
  rw [heq] at ha
  have hmem : a ∈ attributes := OrderedMap.of_get?_ofList (fun _ a => a ∈ attributes)
    (by simp) ha
  have hall := mapM_run (fun _ results _ => ∀ a ∈ results, ∃ d ws ws',
    bindAttribute c d ws = (.ok a, ws') ∧ d ∈ declarations) hbound (by simp)
    (by
      intro done results d b ws₁ ws₂ hd hold hrun a ha
      rcases List.mem_append.mp ha with ha | ha
      · exact hold a ha
      · obtain rfl := List.mem_singleton.mp ha
        exact ⟨d, ws₁, ws₂, hrun, hd⟩)
  obtain ⟨d, ws₁, ws₂, hrun, hd⟩ := hall a hmem
  exact ⟨d, ws₁, ws₂, hrun, declarations, hdeclarations, hd⟩

/-! ### Names of fields -/

theorem hasField_iff : s.hasField name = true
    ↔ (∃ a, s.attribute? name = some a) ∨ ∃ r, s.relation? name = some r := by
  rw [hasField, Bool.or_eq_true]
  exact or_congr OrderedMap.contains_iff_exists_get? OrderedMap.contains_iff_exists_get?

theorem hasField_of_attribute {a : Attribute} (h : s.attribute? name = some a) :
    s.hasField name = true := hasField_iff.mpr (.inl ⟨a, h⟩)

theorem hasField_of_relation {r : Relation} (h : s.relation? name = some r) :
    s.hasField name = true := hasField_iff.mpr (.inr ⟨r, h⟩)

/-- Every field is listed under its own name. -/
structure WellNamed (s : ClassSchema) : Prop where
  attributes : ∀ name a, s.attribute? name = some a → a.name = name
  relations : ∀ name r, s.relation? name = some r → r.name = name

theorem wellNamed_iff : s.WellNamed ↔ (s.attributes.entries.all fun e => e.2.name == e.1) = true
    ∧ (s.relations.entries.all fun e => e.2.name == e.1) = true := by
  simp only [List.all_eq_true, beq_iff_eq]
  constructor
  · intro h
    exact ⟨fun e he => h.attributes _ _ (OrderedMap.get?_eq_some_iff.mpr he),
      fun e he => h.relations _ _ (OrderedMap.get?_eq_some_iff.mpr he)⟩
  · rintro ⟨hattributes, hrelations⟩
    exact ⟨fun name a ha => hattributes (name, a) (OrderedMap.get?_eq_some_iff.mp ha),
      fun name r hr => hrelations (name, r) (OrderedMap.get?_eq_some_iff.mp hr)⟩

instance (s : ClassSchema) : Decidable s.WellNamed := decidable_of_iff _ wellNamed_iff.symm

theorem LoadedFrom.wellNamed (hs : LoadedFrom h c s) : s.WellNamed := by
  obtain ⟨_, _, _, _, _, _, _, _, _, _, hattributes, hrelations⟩ := hs.parts
  constructor
  · intro name a ha
    unfold attribute? at ha
    rw [hattributes] at ha
    exact OrderedMap.of_get?_ofList (fun name a => a.name = name) (by simp) ha
  · intro name r hr
    unfold relation? at hr
    rw [hrelations] at hr
    exact OrderedMap.of_get?_ofList (fun name r => r.name = name)
      (by simp [Relation.ofDeclaration]) hr

/-- Every field of the schema is one that the class declares or inherits. -/
theorem LoadedFrom.hasField (hs : LoadedFrom h c s)
    (hname : (s.attribute? name).isSome = true ∨ (s.relation? name).isSome = true) :
    h.hasField c name = .ok true := by
  have hfound : ∀ line, h.lineage c = .ok line → (∃ d ∈ line,
      (∃ a ∈ d.attributes, a.name = name) ∨ ∃ r ∈ d.relations, r.name = name) →
      h.hasField c name = .ok true := by
    rintro line hline ⟨d, hd, hfield⟩
    unfold Hierarchy.hasField
    rw [hline]
    refine congrArg Except.ok (List.any_eq_true.mpr ⟨d, hd, ?_⟩)
    rw [Bool.or_eq_true]
    apply hfield.imp
    · rintro ⟨a, ha, rfl⟩
      exact List.any_eq_true.mpr ⟨a, ha, beq_self_eq_true _⟩
    · rintro ⟨r, hr, rfl⟩
      exact List.any_eq_true.mpr ⟨r, hr, beq_self_eq_true _⟩
  rcases hname with hname | hname
  · obtain ⟨a, ha⟩ := Option.isSome_iff_exists.mp hname
    obtain ⟨d, _, _, hbound, declarations, hdeclarations, hd⟩ := hs.bound ha
    obtain ⟨line, hline, heq⟩ := except_bind_eq_ok.mp hdeclarations
    cases heq
    obtain ⟨declaration, hmem, hd⟩ := List.mem_flatMap.mp (OrderedMap.mem_of_mem_distinctBy hd)
    exact hfound line hline ⟨declaration, hmem,
      Or.inl ⟨d, hd, (bindAttribute_name hbound).symm.trans (hs.wellNamed.attributes _ _ ha)⟩⟩
  · obtain ⟨r, hr⟩ := Option.isSome_iff_exists.mp hname
    obtain ⟨_, declarations, _, _, _, hdeclarations, _, _, _, _, _, heq⟩ := hs.parts
    obtain ⟨line, hline, hdistinct⟩ := except_bind_eq_ok.mp hdeclarations
    unfold relation? at hr
    rw [heq] at hr
    obtain ⟨d, hd, hdname⟩ : ∃ d ∈ declarations, d.name = name :=
      OrderedMap.of_get?_ofList (fun name _ => ∃ d ∈ declarations, d.name = name)
        (fun e he => by
          obtain ⟨d, hd, rfl⟩ := List.mem_map.mp he
          exact ⟨d, hd, rfl⟩) hr
    cases hdistinct
    obtain ⟨declaration, hmem, hd⟩ := List.mem_flatMap.mp (OrderedMap.mem_of_mem_distinctBy hd)
    exact hfound line hline ⟨declaration, hmem, Or.inr ⟨d, hd, hdname⟩⟩

theorem WellNamed.relation?_of_mem {r : Relation} (hs : s.WellNamed) (hr : r ∈ s.relations.values) :
    s.relation? r.name = some r := by
  obtain ⟨name, hget⟩ := OrderedMap.exists_get?_of_mem_values hr
  rw [hs.relations name r hget]
  exact hget

/-- The relations have names of their own. -/
theorem WellNamed.nodup_names (hs : s.WellNamed) : (s.relations.values.map Relation.name).Nodup := by
  have hkeys : s.relations.values.map Relation.name = s.relations.keys := by
    unfold OrderedMap.values OrderedMap.keys
    rw [List.map_map]
    exact List.map_congr_left fun e he => hs.relations e.1 e.2 (OrderedMap.get?_eq_some_iff.mpr he)
  rw [hkeys]
  exact s.relations.nodup_keys

theorem mem_relations_of_relation? {r : Relation} (hr : s.relation? name = some r) :
    r ∈ s.relations.values :=
  OrderedMap.mem_values_of_get? hr

theorem mem_attributes_of_attribute? {a : Attribute} (ha : s.attribute? name = some a) :
    name ∈ s.attributes.keys :=
  OrderedMap.mem_keys_iff.mpr ⟨a, ha⟩

theorem exists_attribute?_of_mem (hname : name ∈ s.attributes.keys) :
    ∃ a, s.attribute? name = some a :=
  OrderedMap.mem_keys_iff.mp hname

end ClassSchema

end RecordGraph
