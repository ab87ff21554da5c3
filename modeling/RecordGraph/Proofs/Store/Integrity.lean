import RecordGraph.Proofs.Store.Atomicity

/-!
Referential integrity.  As long as no inclusion is removed and references are only written through
object accessors, every reference stands in a visible database and points to a visible record.  Most
operations only widen what is visible; destroying, renaming and writing keep the invariant by their
checks.
-/

namespace RecordGraph

open RecordGraph.Computation

namespace Value

variable {source target t : RecordRef}

/-- Retargeting a value retargets what it points to. -/
theorem targets_retarget (v : Value) :
    (v.retarget source target).targets
      = v.targets.map fun t => if t = source then target else t := by
  induction v using Value.rec
    (motive_2 := fun items => targets.go (retarget.go source target items)
      = (targets.go items).map fun t => if t = source then target else t) with
  | record r => simp [retarget, targets]
  | list items ih => simpa [retarget, targets] using ih
  | nil => simp [retarget.go, targets.go]
  | cons v vs ihv ihvs => simp [retarget.go, targets.go, ihv, ihvs]
  | _ => simp [retarget, targets]

end Value

namespace Database

variable {d d' : Database} {r t source target : RecordRef}

/-- A record of a database has a field that points to a record, at any depth of lists. -/
def Refers (d : Database) (r t : RecordRef) : Prop :=
  ∃ fields name v, d.records.get? r = some fields ∧ fields.get? name = some v ∧ t ∈ v.targets

theorem Refers.holds (h : d.Refers r t) : d.holds r = true := by
  obtain ⟨fields, _, _, hfields, -⟩ := h
  rw [Database.holds, ← OrderedMap.get?_isSome, hfields]
  rfl

theorem mem_referrers (h : d.Refers r t) (hne : r ≠ t) : r ∈ d.referrers t := by
  obtain ⟨fields, name, v, hfields, hv, ht⟩ := h
  refine List.mem_map.mpr ⟨(r, fields), List.mem_filter.mpr
    ⟨OrderedMap.get?_eq_some_iff.mp hfields, ?_⟩, rfl⟩
  simp only [Bool.and_eq_true, bne_iff_ne, ne_eq, List.any_eq_true]
  exact ⟨hne, v, OrderedMap.mem_values_of_get? hv, by simpa [Value.refersTo] using ht⟩

/-- A reference of a retargeted database comes from one of the database. -/
theorem Refers.of_retarget (h : (d.retarget source target).Refers r t) :
    ∃ u, d.Refers r u ∧ t = if u = source then target else u := by
  obtain ⟨fields, name, v, hfields, hv, ht⟩ := h
  simp only [retarget, OrderedMap.get?_mapValues, Option.map_eq_some_iff] at hfields
  obtain ⟨fields, hfields, rfl⟩ := hfields
  rw [OrderedMap.get?_mapValues, Option.map_eq_some_iff] at hv
  obtain ⟨v, hv, rfl⟩ := hv
  rw [Value.targets_retarget] at ht
  obtain ⟨u, hu, rfl⟩ := List.mem_map.mp ht
  exact ⟨u, ⟨fields, name, v, hfields, hv, hu⟩, rfl⟩

@[simp] theorem holds_retarget : (d.retarget source target).holds r = d.holds r := by
  unfold holds retarget
  rw [Bool.eq_iff_iff, OrderedMap.contains_iff_mem_keys, OrderedMap.keys_mapValues,
    OrderedMap.contains_iff_mem_keys]

theorem Refers.of_moved (h : (d.moved source target).Refers r t) : ∃ r', d.Refers r' t := by
  obtain ⟨fields, name, v, hfields, hv, ht⟩ := h
  rw [moved, OrderedMap.get?_insert] at hfields
  split at hfields
  · cases hsource : d.records.get? source with
    | none =>
      simp only [hsource, Option.getD_none, Option.some.injEq] at hfields
      simp [← hfields] at hv
    | some fields' =>
      simp only [hsource, Option.getD_some, Option.some.injEq] at hfields
      exact ⟨source, fields', name, v, hsource, hfields ▸ hv, ht⟩
  · rw [OrderedMap.get?_erase] at hfields
    split at hfields
    · simp at hfields
    · exact ⟨r, fields, name, v, hfields, hv, ht⟩

theorem holds_moved_self : (d.moved source target).holds target = true := by
  simp [holds, moved, OrderedMap.contains_insert]

theorem holds_moved (h : d.holds r = true) (hne : r ≠ source) :
    (d.moved source target).holds r = true := by
  unfold holds at h
  simp [holds, moved, OrderedMap.contains_insert, OrderedMap.contains_erase, h, hne]

/-- A reference of a database with a written field was there before, or is written. -/
theorem refers_of_write (d : Database) {field : String} {v : Value} {x y : RecordRef}
    (h : Refers { d with
      records := d.records.insert r (if v.isNull then ((d.records.get? r).getD .empty).erase field
        else ((d.records.get? r).getD .empty).insert field v) } x y) :
    d.Refers x y ∨ y ∈ v.targets := by
  obtain ⟨fields, name, w, hfields, hw, hy⟩ := h
  rw [OrderedMap.get?_insert] at hfields
  split at hfields
  · rename_i hx
    subst hx
    have hold : ((d.records.get? x).getD .empty).get? name = some w → d.Refers x y := by
      cases hget : d.records.get? x with
      | none => simp
      | some fields => exact fun hw => ⟨fields, name, w, hget, hw, hy⟩
    cases hfields
    split at hw
    · rw [OrderedMap.get?_erase] at hw
      split at hw
      · simp at hw
      · exact Or.inl (hold hw)
    · rw [OrderedMap.get?_insert] at hw
      split at hw
      · cases hw
        exact Or.inr hy
      · exact Or.inl (hold hw)
  · exact Or.inl ⟨fields, name, w, hfields, hw, hy⟩

/-- A database includes and holds at least what another one does, and has no references but those of
the other. -/
structure Widens (d d' : Database) : Prop where
  includes : ∀ name ∈ d.includes, name ∈ d'.includes
  holds : ∀ r, d.holds r = true → d'.holds r = true
  refers : ∀ r t, d'.Refers r t → d.Refers r t

theorem Widens.refl (d : Database) : d.Widens d := ⟨fun _ h => h, fun _ h => h, fun _ _ h => h⟩

theorem Widens.trans {d'' : Database} (h : d.Widens d') (h' : d'.Widens d'') : d.Widens d'' where
  includes name hname := h'.includes name (h.includes name hname)
  holds r hr := h'.holds r (h.holds r hr)
  refers r t hrefers := h.refers r t (h'.refers r t hrefers)

theorem Widens.of_records (hincludes : ∀ name ∈ d.includes, name ∈ d'.includes)
    (hrecords : d'.records = d.records) : d.Widens d' where
  includes := hincludes
  holds r hr := by
    unfold Database.holds
    rwa [hrecords]
  refers r t hrefers := by
    unfold Refers at hrefers
    rwa [hrecords] at hrefers

theorem widens_commented (d : Database) (comment : String) : d.Widens (d.commented comment) := by
  unfold commented
  split
  · exact .refl d
  · exact .of_records (fun _ h => h) rfl

theorem widens_including (d : Database) (included : String) : d.Widens (d.including included) := by
  unfold including
  split
  · exact .refl d
  · exact .of_records (fun _ h => List.mem_append_left _ h) rfl

theorem widens_insert_empty (d : Database) (r : RecordRef) :
    d.Widens { d with records := d.records.insert r .empty } where
  includes _ h := h
  holds r' hr' := by
    unfold Database.holds at hr' ⊢
    rw [OrderedMap.contains_insert, hr', Bool.or_true]
  refers r' t := by
    rintro ⟨fields, name, v, hfields, hv, ht⟩
    rw [OrderedMap.get?_insert] at hfields
    split at hfields
    · cases hfields
      simp at hv
    · exact ⟨fields, name, v, hfields, hv, ht⟩

end Database

namespace Store

variable {s t u : Store} {r : RecordRef} {name place : String} {op : Operation}

/-! ### What stays visible -/

theorem step_includeGraph {a b : String} :
    s.includeGraph.Step a b ↔ ∃ d, s.databases.get? a = some d ∧ b ∈ d.includes := by
  unfold NameGraph.Step NameGraph.next includeGraph
  rw [OrderedMap.get?_mapValues]
  cases s.databases.get? a <;> simp

/-- What a visible database includes is visible. -/
theorem mem_visible_of_closure (hplace : place ∈ s.visible) (hname : name ∈ s.closure [place]) :
    name ∈ s.visible := by
  obtain ⟨root, hroot, hleads⟩ := NameGraph.mem_reach_iff.mp hplace
  obtain ⟨_, hfirst, hrest⟩ := NameGraph.mem_reach_iff.mp hname
  rw [List.mem_singleton.mp hfirst] at hrest
  exact NameGraph.mem_reach_iff.mpr ⟨root, hroot, hleads.trans hrest⟩

/-- Nothing that was loaded, included or held is lost, and no reference is new. -/
structure Widens (s t : Store) : Prop where
  loaded : ∀ name ∈ s.loaded, name ∈ t.loaded
  kept : ∀ name d, s.databases.get? name = some d →
    ∃ d', t.databases.get? name = some d' ∧ d.Widens d'
  new : ∀ name d', s.databases.get? name = none → t.databases.get? name = some d' →
    ∀ r u, ¬ d'.Refers r u

namespace Widens

theorem of_databases (hloaded : ∀ name ∈ s.loaded, name ∈ t.loaded)
    (hdatabases : t.databases = s.databases) : s.Widens t where
  loaded := hloaded
  kept name d hd := ⟨d, hdatabases ▸ hd, .refl d⟩
  new name d' hnone hsome := by
    rw [hdatabases, hnone] at hsome
    simp at hsome

theorem refl (s : Store) : s.Widens s := of_databases (fun _ h => h) rfl

theorem trans (hst : s.Widens t) (htu : t.Widens u) : s.Widens u where
  loaded name hname := htu.loaded name (hst.loaded name hname)
  kept name d hd := by
    obtain ⟨d', hd', hwidens⟩ := hst.kept name d hd
    obtain ⟨d'', hd'', hwidens'⟩ := htu.kept name d' hd'
    exact ⟨d'', hd'', hwidens.trans hwidens'⟩
  new name d'' hnone hsome r x hrefers := by
    cases hd' : t.databases.get? name with
    | none => exact htu.new name d'' hd' hsome r x hrefers
    | some d' =>
      obtain ⟨d₂, hd₂, hwidens⟩ := htu.kept name d' hd'
      rw [hsome] at hd₂
      cases hd₂
      exact hst.new name d' hnone hd' r x (hwidens.refers r x hrefers)

theorem adjust (s : Store) (place : String) {f : Database → Database}
    (hf : ∀ d : Database, d.Widens (f d)) : s.Widens (s.adjust place f) where
  loaded _ h := h
  kept name d hd := by
    rw [get?_adjust]
    split
    · rename_i heq
      exact ⟨f d, by rw [← heq, hd]; rfl, hf d⟩
    · exact ⟨d, hd, .refl d⟩
  new name d' hnone hsome := by
    rw [get?_adjust] at hsome
    split at hsome
    · rename_i heq
      simp [← heq, hnone] at hsome
    · simp [hnone] at hsome

theorem foldl_adjust (names : List String) (s : Store) {f : Database → Database}
    (hf : ∀ d : Database, d.Widens (f d)) :
    s.Widens (names.foldl (fun t name => t.adjust name f) s) := by
  induction names generalizing s with
  | nil => exact refl s
  | cons name names ih => exact (adjust s name hf).trans (ih _)

theorem withDatabase {includes : List String} (hnew : s.databases.contains name = false) :
    s.Widens (s.withDatabase name includes) where
  loaded _ h := h
  kept other d hd := ⟨d, get?_withDatabase hnew hd, .refl d⟩
  new other d' hnone hsome r x := by
    rw [Store.withDatabase, OrderedMap.get?_insert] at hsome
    split at hsome
    · cases hsome
      rintro ⟨fields, _, _, hfields, -⟩
      simp at hfields
    · simp [hnone] at hsome

variable (h : s.Widens t)

include h

theorem visible (hname : name ∈ s.visible) : name ∈ t.visible := by
  obtain ⟨root, hroot, hleads⟩ := NameGraph.mem_reach_iff.mp hname
  refine NameGraph.mem_reach_iff.mpr ⟨root, h.loaded root hroot, ?_⟩
  induction hleads with
  | refl => exact .refl root
  | tail hprefix hstep ih =>
    obtain ⟨d, hd, hincludes⟩ := step_includeGraph.mp hstep
    obtain ⟨d', hd', hwidens⟩ := h.kept _ d hd
    exact .tail (ih (NameGraph.mem_reach_iff.mpr ⟨root, hroot, hprefix⟩))
      (step_includeGraph.mpr ⟨d', hd', hwidens.includes _ hincludes⟩)

theorem visible_record (hr : s.Visible r) : t.Visible r := by
  obtain ⟨name, hname, d, hd, hholds⟩ := visible_iff.mp hr
  obtain ⟨d', hd', hwidens⟩ := h.kept name d hd
  exact visible_iff.mpr ⟨name, h.visible hname, d', hd', hwidens.holds r hholds⟩

end Widens

/-! ### The invariant -/

/-- Every reference stands in a visible database and points to a visible record. -/
def Intact (s : Store) : Prop :=
  ∀ name d, s.databases.get? name = some d → ∀ r t, d.Refers r t → name ∈ s.visible ∧ s.Visible t

theorem Intact.widens (hs : s.Intact) (h : s.Widens t) : t.Intact := by
  intro name d' hd' r x hrefers
  cases hd : s.databases.get? name with
  | none => exact absurd hrefers (h.new name d' hd hd' r x)
  | some d =>
    obtain ⟨d₂, hd₂, hwidens⟩ := h.kept name d hd
    rw [hd'] at hd₂
    cases hd₂
    obtain ⟨hname, hvisible⟩ := hs name d hd r x (hwidens.refers r x hrefers)
    exact ⟨h.visible hname, h.visible_record hvisible⟩

theorem sameScope_adjust {f : Database → Database} (hf : ∀ d, (f d).includes = d.includes) :
    s.SameScope (s.adjust place f) := by
  refine sameScope_mapValues fun name d => ?_
  split
  · exact hf d
  · rfl

theorem sameScope_erased (s : Store) (place : String) (r : RecordRef) :
    s.SameScope (s.adjust place fun d => { d with records := d.records.erase r }) :=
  sameScope_adjust fun _ => rfl

/-- A record can go that no visible record points to but itself. -/
theorem Intact.destroy (hs : s.Intact) (hplace : s.location r = some place)
    (hunreferenced : ∀ d ∈ s.databasesIn s.visible, d.referrers r = []) :
    (s.adjust place fun d => { d with records := d.records.erase r }).Intact := by
  have hscope := sameScope_erased s place r
  intro name d' hd' x y hrefers
  -- the reference was there before, and the one who refers was not destroyed
  obtain ⟨d, hd, hbefore, hkept⟩ : ∃ d, s.databases.get? name = some d ∧ d.Refers x y
      ∧ (x = r → name ≠ place) := by
    rw [get?_adjust] at hd'
    split at hd'
    · rename_i heq
      obtain ⟨d, hd, rfl⟩ := Option.map_eq_some_iff.mp hd'
      obtain ⟨fields, field, v, hfields, hv⟩ := hrefers
      rw [OrderedMap.get?_erase] at hfields
      split at hfields
      · simp at hfields
      · rename_i hne
        exact ⟨d, heq ▸ hd, ⟨fields, field, v, hfields, hv⟩, fun hx => absurd hx hne⟩
    · rename_i hne
      exact ⟨d', hd', hrefers, fun _ => hne⟩
  obtain ⟨hname, hvisible⟩ := hs name d hd x y hbefore
  refine ⟨hscope.visible ▸ hname, visible_iff.mpr ?_⟩
  rw [hscope.visible]
  by_cases hy : y = r
  · -- only the record itself still points to it, from another database that holds it too
    subst hy
    have hself : x = y := Decidable.byContradiction fun hne => by
      have hmem := Database.mem_referrers hbefore hne
      rw [hunreferenced d (List.mem_filterMap.mpr ⟨name, hname, hd⟩)] at hmem
      simp at hmem
    refine ⟨name, hname, d, ?_, hself ▸ hbefore.holds⟩
    rw [get?_adjust, if_neg (hkept hself), hd]
  · obtain ⟨other, hother, d₂, hd₂, hholds⟩ := visible_iff.mp hvisible
    rw [Database.holds] at hholds
    by_cases heq : other = place
    · refine ⟨other, hother, { d₂ with records := d₂.records.erase r }, ?_, ?_⟩
      · rw [get?_adjust, if_pos heq, ← heq, hd₂]
        rfl
      · simp [Database.holds, OrderedMap.contains_erase, hy, hholds]
    · exact ⟨other, hother, d₂, by rw [get?_adjust, if_neg heq, hd₂], hholds⟩

theorem get?_withRenamed {renamed : RecordRef} :
    (s.withRenamed place r renamed).databases.get? name
      = ((s.adjust place (Database.moved r renamed)).databases.get? name).map
          fun d => d.retarget r renamed :=
  OrderedMap.get?_mapValues ..

/-- References follow a record to its new name. -/
theorem Intact.rename {renamed : RecordRef} (hs : s.Intact) (hplace : s.location r = some place) :
    (s.withRenamed place r renamed).Intact := by
  have hscope := sameScope_withRenamed s place r renamed
  intro name d' hd' x y hrefers
  rw [get?_withRenamed] at hd'
  obtain ⟨d₁, hd₁, rfl⟩ := Option.map_eq_some_iff.mp hd'
  obtain ⟨z, hbetween, rfl⟩ := hrefers.of_retarget
  obtain ⟨d, hd, x', hbefore⟩ : ∃ d, s.databases.get? name = some d ∧ ∃ x', d.Refers x' z := by
    rw [get?_adjust] at hd₁
    split at hd₁
    · rename_i heq
      obtain ⟨d, hd, rfl⟩ := Option.map_eq_some_iff.mp hd₁
      exact ⟨d, heq ▸ hd, hbetween.of_moved⟩
    · exact ⟨d₁, hd₁, x, hbetween⟩
  obtain ⟨hname, hvisible⟩ := hs name d hd x' z hbefore
  refine ⟨hscope.visible ▸ hname, visible_iff.mpr ?_⟩
  simp only [hscope.visible, get?_withRenamed, get?_adjust]
  by_cases hz : z = r
  · obtain ⟨d₂, hd₂, -⟩ := get?_of_location hplace
    refine ⟨place, (locate_eq_some hplace).1, (d₂.moved r renamed).retarget r renamed, ?_, ?_⟩
    · rw [if_pos rfl, hd₂]
      rfl
    · rw [if_pos hz, Database.holds_retarget]
      exact Database.holds_moved_self
  · rw [if_neg hz]
    obtain ⟨other, hother, d₂, hd₂, hholds⟩ := visible_iff.mp hvisible
    by_cases heq : other = place
    · refine ⟨other, hother, (d₂.moved r renamed).retarget r renamed, ?_, ?_⟩
      · rw [if_pos heq, ← heq, hd₂]
        rfl
      · rw [Database.holds_retarget]
        exact Database.holds_moved hholds hz
    · refine ⟨other, hother, d₂.retarget r renamed, ?_, by rwa [Database.holds_retarget]⟩
      rw [if_neg heq, hd₂]
      rfl

/-- What a database includes of the targets of a value is visible where the database is. -/
theorem visible_of_checkReach {v : Value} {accessor : Accessor} (hplace : s.location r = some place)
    (hreach : s.checkReach place accessor v = .ok ()) (hobject : accessor.isObject = true) :
    ∀ y ∈ v.targets, s.Visible y := by
  intro y hy
  obtain ⟨other, hother, d, hd, hholds⟩ :=
    locate_isSome_iff.mp (checkReach_eq_ok.mp hreach hobject y hy)
  exact visible_iff.mpr ⟨other, mem_visible_of_closure (locate_eq_some hplace).1 hother, d, hd, hholds⟩

/-- What is written through an accessor can be read through it. -/
theorem read_put {field : String} {v : Value} {accessor : Accessor}
    (h : s.writePlace r field accessor v = .ok place) :
    (s.put place r field v).read r field accessor = .ok (v.orEmpty accessor.multi) := by
  obtain ⟨hplace, -, hfield, hreach⟩ := writePlace_eq_ok.mp h
  have hshape : s.SameShape (s.put place r field v) := sameShape_put hplace
  have hplace' := (hshape.location r).trans hplace
  have hfield' := (hshape.checkField r field).trans hfield
  have hstored : (s.put place r field v).stored place r field accessor.multi
      = v.orEmpty accessor.multi := by
    rw [stored_put hplace, if_pos ⟨rfl, rfl, rfl⟩]
  cases hobject : accessor.isObject with
  | false =>
    rw [read_of_location hplace' hobject, hfield', hstored]
    rfl
  | true =>
    rw [read_of_visible hplace' hfield', hstored]
    intro y hy
    rw [hstored] at hy
    unfold Visible
    rw [hshape.location]
    exact visible_of_checkReach hplace hreach hobject y (v.targets_orEmpty_subset accessor.multi hy)

/-- What is written through an object accessor points to what the database includes. -/
theorem Intact.put {field : String} {v : Value} {accessor : Accessor} (hs : s.Intact)
    (hplace : s.location r = some place) (hreach : s.checkReach place accessor v = .ok ())
    (hsafe : accessor.isObject = true ∨ v.targets = []) : (s.put place r field v).Intact := by
  have hshape : s.SameShape (s.put place r field v) := sameShape_put hplace
  have hvisible : ∀ y ∈ v.targets, s.Visible y := by
    intro y hy
    rcases hsafe with hobject | hnone
    · exact visible_of_checkReach hplace hreach hobject y hy
    · simp [hnone] at hy
  intro name d' hd' x y hrefers
  rw [hshape.visible]
  unfold Visible
  rw [hshape.location]
  have hget : (s.put place r field v).databases.get? name
      = if name = place then (s.databases.get? place).map fun d =>
          let fields := (d.records.get? r).getD .empty
          let fields := if v.isNull then fields.erase field else fields.insert field v
          { d with records := d.records.insert r fields }
        else s.databases.get? name := get?_adjust
  rw [hget] at hd'
  split at hd'
  · rename_i heq
    subst heq
    obtain ⟨d, hd, rfl⟩ := Option.map_eq_some_iff.mp hd'
    -- either the written value points there, or a field that stayed
    rcases d.refers_of_write hrefers with hbefore | hwritten
    · exact hs name d hd x y hbefore
    · exact ⟨(locate_eq_some hplace).1, hvisible y hwritten⟩
  · exact hs name d' hd' x y hrefers

end Store

/-! ### Runs -/

/-- Operations that keep references intact: no inclusion is removed, and references are written
through object accessors only. -/
def Operation.KeepsReferences : Operation → Prop
  | .removeInclude _ _ => False
  | .write _ _ accessor v => accessor.isObject = true ∨ v.targets = []
  | _ => True

namespace Store

variable {s t : Store} {op : Operation} {r : RecordRef} {place : String}

theorem Intact.transition (hs : s.Intact) (hop : op.KeepsReferences) (ht : Transition s op t) :
    t.Intact := by
  cases ht with
  | addSchema => exact hs.widens (.of_databases (fun _ h => h) rfl)
  | addSchemaText _ => exact hs.widens (.of_databases (fun _ h => h) rfl)
  | addDatabase hnew _ => exact hs.widens (.withDatabase hnew)
  | createDatabase hnew _ =>
    exact hs.widens ((Widens.withDatabase hnew).trans
      (.of_databases (fun _ h => List.mem_append_left _ h) rfl))
  | load _ =>
    split
    · exact hs
    · exact hs.widens (.of_databases (fun _ h => List.mem_append_left _ h) rfl)
  | setReadOnly _ => exact hs.widens (.adjust s _ fun _ => .of_records (fun _ h => h) rfl)
  | addInclude _ _ => exact hs.widens (.adjust s _ fun d => d.widens_including _)
  | removeInclude _ _ => exact hop.elim
  | commit _ => exact hs.widens (.foldl_adjust _ s fun d => d.widens_commented _)
  | createRecord _ _ _ => exact hs.widens (.adjust s _ fun d => d.widens_insert_empty _)
  | destroyRecord hplace _ hunreferenced => exact hs.destroy hplace hunreferenced
  | renameRecord hplace _ _ => exact hs.rename hplace
  | write hwritable =>
    obtain ⟨hplace, -, -, hreach⟩ := writePlace_eq_ok.mp hwritable
    exact hs.put hplace hreach hop

theorem ReachableBy.intact (h : s.ReachableBy Operation.KeepsReferences) : s.Intact := by
  induction h with
  | empty =>
    intro name d hd
    simp at hd
  | @step s op hop h ih =>
    rcases hrun : op.run s with ⟨e | u, t⟩
    · exact h.reachable.loadsDatabases.eq_of_error hrun ▸ ih
    · exact ih.transition hop (transition_of_run hrun)

/-! ### Reading -/

theorem Intact.visible_of_stored {field : String} {multi : Bool} {x : RecordRef} (hs : s.Intact)
    (hx : x ∈ (s.stored place r field multi).targets) : s.Visible x := by
  unfold stored at hx
  cases hfield : ((s.databases.get? place).bind fun d => d.records.get? r).bind
      fun fields => fields.get? field with
  | none =>
    rw [hfield] at hx
    cases multi <;> simp [Value.targets, Value.targets.go] at hx
  | some v =>
    rw [hfield] at hx
    obtain ⟨fields, hfields, hv⟩ := Option.bind_eq_some_iff.mp hfield
    obtain ⟨d, hd, hfields⟩ := Option.bind_eq_some_iff.mp hfields
    exact (hs place d hd r x ⟨fields, field, v, hfields, hv, hx⟩).2

/-- Reading finds all targets, and fails only for want of the record or of the field. -/
theorem Intact.read_eq (hs : s.Intact) (r : RecordRef) (field : String) (accessor : Accessor) :
    s.read r field accessor = (do
      let place ← s.locateVisible r
      s.checkField r field
      pure (s.stored place r field accessor.multi)) := by
  cases hplace : s.locateVisible r with
  | error e => simp [read, hplace, bind, Except.bind]
  | ok place =>
    cases hfield : s.checkField r field with
    | error e => simp [read, hplace, hfield, bind, Except.bind]
    | ok u =>
      rw [read_of_visible (locateVisible_eq_ok.mp hplace) hfield fun x hx =>
        hs.visible_of_stored hx]
      simp [bind, Except.bind, pure, Except.pure]

/-- In every run that removes no inclusion and writes references through object accessors only, what
visible records refer to is visible, and reading through an object accessor gives what is stored, but
for a record that is not visible or a field that its class does not have. -/
theorem ReachableBy.targets_visible (h : s.ReachableBy Operation.KeepsReferences) :
    (∀ place ∈ s.visible, ∀ d, s.databases.get? place = some d → ∀ r t, d.Refers r t → s.Visible t)
      ∧ ∀ (r : RecordRef) (field : String) (accessor : Accessor), accessor.isObject = true →
        s.read r field accessor = (do
          let place ← s.locateVisible r
          s.checkField r field
          pure (s.stored place r field accessor.multi)) :=
  ⟨fun place _ d hd r t hrefers => (h.intact place d hd r t hrefers).2,
    fun r field accessor _ => h.intact.read_eq r field accessor⟩

/-- Two databases, one of which includes the other; a record of the first refers to one of the second,
which then gets another id. -/
def renamedAfar : Store :=
  after [
    .addSchema "s" { classes := [{ name := "A", relations := [{ name := "peer", target := "A" }] }] },
    .addDatabase "far" [],
    .createDatabase "near" ["s", "far"],
    .createRecord "far" "A" "b",
    .createRecord "near" "A" "a",
    .write ⟨"A", "a"⟩ "peer" ⟨.object, false⟩ (.record ⟨"A", "b"⟩),
    .destroyRecord ⟨"A", "b"⟩,
    .renameRecord ⟨"A", "b"⟩ "c"]

/-- The record that is referred to cannot be destroyed, and the reference follows its new id. -/
theorem targets_visible_renamedAfar :
    renamedAfar.Visible ⟨"A", "c"⟩ ∧ ¬ renamedAfar.Visible ⟨"A", "b"⟩
      ∧ renamedAfar.read ⟨"A", "a"⟩ "peer" ⟨.object, false⟩ = .ok (.record ⟨"A", "c"⟩) := by
  have hruns : renamedAfar.ReachableBy Operation.KeepsReferences :=
    reachableBy_after (by simp [Operation.KeepsReferences, Accessor.isObject])
  obtain ⟨htargets, hread⟩ := hruns.targets_visible
  refine ⟨htargets "near" (by decide +kernel) _ rfl ⟨"A", "a"⟩ _
    ⟨_, "peer", .record ⟨"A", "c"⟩, rfl, rfl, List.mem_singleton_self _⟩, by decide +kernel, ?_⟩
  rw [hread _ _ _ rfl]
  rfl

end Store

end RecordGraph
