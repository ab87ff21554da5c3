import RecordGraph.Proofs.Schema.Loading
import RecordGraph.Registry.Basic

/-!
Current registries.  A registry is current when all that it knows is what a hierarchy says: its
schemas are loaded from the hierarchy and its types are derived from them.  Deriving types keeps a
registry current, and when it succeeds every listed class has a type.
-/

namespace RecordGraph

open RecordGraph.Computation

namespace Registry

/-- What a registry knows is what a hierarchy says. -/
structure Current (r : Registry) (h : Hierarchy) : Prop where
  schemas : ∀ c s, r.schemas.get? c = some s → ClassSchema.LoadedFrom h c s
  types : ∀ c t, r.types.get? c = some t →
    t.name = c ∧ r.schemas.get? c = some t.schema ∧ t.Shows h

/-- A type stands under the name of its class and has the schema that the class has. -/
def Consistent (r : Registry) : Prop :=
  ∀ c t, r.types.get? c = some t → t.name = c ∧ r.schemas.get? c = some t.schema

/-- Every class of a hierarchy has a schema and a type. -/
def Complete (r : Registry) (h : Hierarchy) : Prop :=
  ∀ c ∈ h.names, r.schemas.contains c = true ∧ r.types.contains c = true

variable {r : Registry} {h : Hierarchy} {home : RegistryId}

theorem schema_eq_ok {c : String} {s : ClassSchema} :
    r.schema c = .ok s ↔ r.schemas.get? c = some s := by
  unfold schema
  cases r.schemas.get? c <;> simp

theorem type_eq_ok {c : String} {t : ClassType} : r.type c = .ok t ↔ r.types.get? c = some t := by
  unfold type
  cases r.types.get? c <;> simp

theorem Current.consistent (hr : r.Current h) : r.Consistent := by
  intro c t ht
  obtain ⟨hname, hschema, -⟩ := hr.types c t ht
  exact ⟨hname, hschema⟩

theorem current_empty (h : Hierarchy) : ({} : Registry).Current h :=
  ⟨fun c s hs => by simp at hs, fun c t ht => by simp at ht⟩

theorem Current.wellNamed (hr : r.Current h) {c : String} {s : ClassSchema}
    (hs : r.schemas.get? c = some s) : s.WellNamed :=
  (hr.schemas c s hs).wellNamed

theorem Current.insertSchema (hr : r.Current h) {c : String} {s : ClassSchema}
    (hs : ClassSchema.LoadedFrom h c s) : Current { r with schemas := r.schemas.insert c s } h := by
  constructor
  · intro c' s' hget
    rw [OrderedMap.get?_insert] at hget
    split at hget
    · rename_i heq
      cases hget
      exact heq ▸ hs
    · exact hr.schemas c' s' hget
  · intro c' t ht
    obtain ⟨hname, hschema, hshows⟩ := hr.types c' t ht
    refine ⟨hname, ?_, hshows⟩
    rw [OrderedMap.get?_insert]
    split
    · rename_i heq
      subst heq
      exact congrArg some (hs.eq (hr.schemas _ _ hschema))
    · exact hschema

/-! ### Derivation -/

theorem derived?_eq_some {s : ClassSchema} {t : ClassType} (ht : r.derived? home s = some t) :
    t.schema = s ∧ s.superclasses.mapM r.types.get? = some t.bases ∧ t.home = home := by
  unfold derived? at ht
  cases hbases : s.superclasses.mapM r.types.get? with
  | none => simp [hbases] at ht
  | some bases =>
    simp only [hbases, Option.pure_def, Option.bind_eq_bind, Option.bind_some,
      Option.some.injEq] at ht
    subst ht
    exact ⟨rfl, rfl, rfl⟩

/-- Found bases are types of the names that were asked for, and have what all types have. -/
theorem bases_of_types {P : ClassType → Prop}
    (htypes : ∀ c t, r.types.get? c = some t → t.name = c ∧ P t) {names : List String}
    {bases : List ClassType} (hbases : names.mapM r.types.get? = some bases) :
    bases.map ClassType.name = names ∧ ∀ b ∈ bases, P b := by
  induction names generalizing bases with
  | nil =>
    cases hbases
    exact ⟨rfl, by simp⟩
  | cons name names ih =>
    rw [List.mapM_cons] at hbases
    cases hfirst : r.types.get? name with
    | none => simp [hfirst] at hbases
    | some b =>
      cases hrest : names.mapM r.types.get? with
      | none => simp [hfirst, hrest] at hbases
      | some bs =>
        simp only [hfirst, hrest, Option.pure_def, Option.bind_eq_bind, Option.bind_some,
          Option.some.injEq] at hbases
        subst hbases
        obtain ⟨hnames, hall⟩ := ih hrest
        obtain ⟨hname, hb⟩ := htypes name b hfirst
        refine ⟨by rw [List.map_cons, hname, hnames], ?_⟩
        intro b' hb'
        rcases List.mem_cons.mp hb' with rfl | hb'
        · exact hb
        · exact hall b' hb'

theorem Current.bases (hr : r.Current h) {names : List String} {bases : List ClassType}
    (hbases : names.mapM r.types.get? = some bases) :
    bases.map ClassType.name = names ∧ ∀ b ∈ bases, b.Shows h :=
  bases_of_types (fun c t ht => ⟨(hr.types c t ht).1, (hr.types c t ht).2.2⟩) hbases

theorem Current.insertType (home : RegistryId) (hr : r.Current h) {s : ClassSchema} {t : ClassType}
    (hs : r.schemas.get? s.name = some s) (ht : r.derived? home s = some t) :
    (r.insertType t).Current h := by
  obtain ⟨rfl, hbases, -⟩ := derived?_eq_some ht
  obtain ⟨hnames, hshows⟩ := hr.bases hbases
  have hloaded := hr.schemas _ _ hs
  obtain ⟨d, hdeclared, hsuper⟩ := hloaded.declared
  refine ⟨hr.schemas, ?_⟩
  intro c u hget
  rw [Registry.insertType, OrderedMap.get?_insert] at hget
  split at hget
  · rename_i heq
    cases hget
    subst heq
    exact ⟨rfl, hs, .intro hdeclared (hnames.trans hsuper) hshows⟩
  · exact hr.types c u hget

/-- The registry that knows one class without superclasses. -/
def single (home : RegistryId) (s : ClassSchema) : Registry :=
  { schemas := .insert .empty s.name s
    types := .insert .empty s.name { schema := s, bases := [], home }
    known := [s.name] }

theorem current_single {s : ClassSchema} (hs : ClassSchema.LoadedFrom h s.name s)
    (hbases : s.superclasses = []) : (single home s).Current h := by
  have hschema := (current_empty h).insertSchema hs
  have hderived : derived? home { schemas := .insert .empty s.name s } s
      = some { schema := s, bases := [], home } := by
    rw [derived?, hbases]
    rfl
  exact hschema.insertType home (by rw [OrderedMap.get?_insert, if_pos rfl]) hderived

/-- Deriving the type of a class without superclasses that is the only one. -/
theorem deriveMissing_single (home : RegistryId) {s : ClassSchema} (hbases : s.superclasses = []) :
    deriveMissing home { schemas := .insert .empty s.name s }
      = (.ok [{ schema := s, bases := [], home }], single home s) := by
  have hschema : ({ schemas := .insert .empty s.name s } : Registry).schema s.name = .ok s :=
    schema_eq_ok.mpr (by rw [OrderedMap.get?_insert, if_pos rfl])
  have htype : (single home s).type s.name = .ok { schema := s, bases := [], home } :=
    type_eq_ok.mpr (by rw [single, OrderedMap.get?_insert, if_pos rfl])
  have hderived : derived? home { schemas := .insert .empty s.name s } s
      = some { schema := s, bases := [], home } := by
    rw [derived?, hbases]
    rfl
  have hwaiting : deriveWaiting home { schemas := .insert .empty s.name s } [s] 0
      = (single home s, []) := by
    rw [deriveWaiting.eq_def]
    simp only [hderived]
    rw [if_neg (show ¬ OrderedMap.empty.contains s.name = true by exact Bool.false_ne_true),
      deriveWaiting.eq_def]
    rfl
  have hkeys : ({ schemas := .insert .empty s.name s } : Registry).schemas.keys.filter
      (fun name => !({ schemas := .insert .empty s.name s } : Registry).types.contains name)
        = [s.name] := rfl
  have hschemas : (MonadExcept.ofExcept ([s.name].mapM
      ({ schemas := .insert .empty s.name s } : Registry).schema) : RegistryM _)
      { schemas := .insert .empty s.name s } = (.ok [s], { schemas := .insert .empty s.name s }) := by
    rw [ofExcept_apply, List.mapM_cons, hschema]
    rfl
  rw [deriveMissing, bind_of_ok (get_apply _), hkeys, derive, bind_of_ok (get_apply _),
    bind_of_ok hschemas, List.mergeSort_singleton, hwaiting]
  apply (bind_of_ok (set_apply (single home s) _)).trans
  apply (ofExcept_apply _ _).trans
  rw [List.mapM_cons, htype]
  rfl

/-- Deriving keeps a registry current.  What it leaves over aside, every waiting class has a type
afterwards. -/
theorem deriveWaiting_current (home : RegistryId) (hr : r.Current h) (waiting : List ClassSchema)
    (stalled : Nat)
    (hwaiting : ∀ s ∈ waiting, r.schemas.get? s.name = some s) :
    let result := r.deriveWaiting home waiting stalled
    result.1.Current h ∧ result.1.schemas = r.schemas ∧ result.1.updated = r.updated
      ∧ (∀ c, r.types.contains c = true → result.1.types.contains c = true)
      ∧ ∀ s ∈ waiting, result.1.types.contains s.name = true ∨ s ∈ result.2 := by
  fun_induction deriveWaiting home r waiting stalled with
  | case1 r stalled => exact ⟨hr, rfl, rfl, fun _ hc => hc, by simp⟩
  | case2 r s waiting stalled hdone ih =>
    obtain ⟨hcurrent, hschemas, hupdated, hkept, hall⟩ :=
      ih hr fun u hu => hwaiting u (List.mem_cons_of_mem s hu)
    refine ⟨hcurrent, hschemas, hupdated, hkept, ?_⟩
    intro u hu
    rcases List.mem_cons.mp hu with rfl | hu
    · exact Or.inl (hkept _ hdone)
    · exact hall u hu
  | case3 r s waiting stalled hnew t ht ih =>
    have hs := hwaiting s List.mem_cons_self
    obtain ⟨hcurrent, hschemas, hupdated, hkept, hall⟩ :=
      ih (hr.insertType home hs ht) fun u hu => hwaiting u (List.mem_cons_of_mem s hu)
    have hinserted : ∀ c, (r.insertType t).types.contains c = (decide (c = s.name)
        || r.types.contains c) := by
      intro c
      rw [insertType, ClassType.name, (derived?_eq_some ht).1]
      exact OrderedMap.contains_insert _ _ _ _
    refine ⟨hcurrent, hschemas, hupdated, ?_, ?_⟩
    · intro c hc
      exact hkept c (by rw [hinserted, hc, Bool.or_true])
    · intro u hu
      rcases List.mem_cons.mp hu with rfl | hu
      · exact Or.inl (hkept _ (by rw [hinserted]; simp))
      · exact hall u hu
  | case4 r s waiting stalled hnew hblocked hstall =>
    refine ⟨hr, rfl, rfl, fun _ hc => hc, ?_⟩
    intro u hu
    apply Or.inr
    rcases List.mem_cons.mp hu with rfl | hu
    · simp
    · exact List.mem_append_left _ hu
  | case5 r s waiting stalled hnew hblocked hstall ih =>
    have hrotated : ∀ u, u ∈ waiting ++ [s] ↔ u ∈ s :: waiting := by
      intro u
      rw [List.mem_append, List.mem_singleton, List.mem_cons]
      exact Or.comm
    obtain ⟨hcurrent, hschemas, hupdated, hkept, hall⟩ :=
      ih hr fun u hu => hwaiting u ((hrotated u).mp hu)
    exact ⟨hcurrent, hschemas, hupdated, hkept, fun u hu => hall u ((hrotated u).mpr hu)⟩

theorem mapM_schema {names : List String} {schemas : List ClassSchema}
    (hrun : names.mapM r.schema = .ok schemas) :
    (∀ s ∈ schemas, ∃ c ∈ names, r.schemas.get? c = some s)
      ∧ ∀ c ∈ names, ∃ s ∈ schemas, r.schemas.get? c = some s := by
  rw [except_mapM_eq_ok] at hrun
  constructor
  · intro s hs
    have hmem : Except.ok s ∈ names.map r.schema := hrun ▸ List.mem_map_of_mem hs
    obtain ⟨c, hc, hget⟩ := List.mem_map.mp hmem
    exact ⟨c, hc, schema_eq_ok.mp hget⟩
  · intro c hc
    have hmem : r.schema c ∈ schemas.map .ok := hrun ▸ List.mem_map_of_mem hc
    obtain ⟨s, hs, hget⟩ := List.mem_map.mp hmem
    exact ⟨s, hs, schema_eq_ok.mp hget.symm⟩

/-- Deriving the missing types of a current registry leaves it current, with a type for every class
that has a schema. -/
theorem deriveMissing_current (hr : r.Current h) {ts : List ClassType} {r' : Registry}
    (hrun : deriveMissing home r = (.ok ts, r')) :
    r'.Current h ∧ r'.schemas = r.schemas ∧ r'.updated = r.updated
      ∧ ∀ c, r.schemas.contains c = true → r'.types.contains c = true := by
  rw [deriveMissing, bind_of_ok (get_apply r), derive, bind_of_ok (get_apply r)] at hrun
  obtain ⟨schemas, r₁, hschemas, hrun⟩ := bind_eq_ok.mp hrun
  rw [ofExcept_apply] at hschemas
  obtain ⟨hmapM, rfl⟩ := Prod.mk.inj hschemas
  obtain ⟨hfrom, hto⟩ := mapM_schema hmapM
  have hwaiting : ∀ s ∈ schemas.mergeSort fun s t => s.ancestors.length ≤ t.ancestors.length,
      r.schemas.get? s.name = some s := by
    intro s hs
    obtain ⟨c, _, hget⟩ := hfrom s (List.mem_mergeSort.mp hs)
    rw [(hr.schemas c s hget).name_eq]
    exact hget
  have hderived := deriveWaiting_current home hr _ 0 hwaiting
  dsimp only at hderived hrun
  cases hresult : deriveWaiting home r
    (schemas.mergeSort fun s t => s.ancestors.length ≤ t.ancestors.length) 0 with
  | mk r₂ blocked =>
    rw [hresult] at hderived
    simp only [hresult] at hrun
    obtain ⟨hcurrent, hsame, hupdated, hkept, hall⟩ := hderived
    obtain ⟨_, r₃, hset, hrun⟩ := bind_eq_ok.mp hrun
    rw [set_apply] at hset
    obtain ⟨-, rfl⟩ := Prod.mk.inj hset
    cases blocked with
    | cons s blocked => simp at hrun
    | nil =>
      simp only [List.isEmpty_nil, if_true, ofExcept_apply] at hrun
      obtain ⟨-, rfl⟩ := Prod.mk.inj hrun
      refine ⟨hcurrent, hsame, hupdated, ?_⟩
      intro c hc
      by_cases hold : r.types.contains c = true
      · exact hkept c hold
      · have hmissing : c ∈ r.schemas.keys.filter fun name => !r.types.contains name :=
          List.mem_filter.mpr ⟨OrderedMap.contains_iff_mem_keys.mp hc, by simp [hold]⟩
        obtain ⟨s, hs, hget⟩ := hto c hmissing
        rcases hall s (List.mem_mergeSort.mpr hs) with hdone | hleft
        · rw [(hr.schemas c s hget).name_eq] at hdone
          exact hdone
        · simp at hleft

end Registry

end RecordGraph
