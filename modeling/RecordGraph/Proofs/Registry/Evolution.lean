import RecordGraph.Proofs.Registry.Derivation

/-!
How a registry evolves while the classes that the store shows come and go.  Whatever fails on the way,
schemas, types and the names of types stay in step, what was given out stays, and a refresh that
succeeds catches up with all that is visible.
-/

namespace RecordGraph

open RecordGraph.Computation

namespace Registry

variable {r r' r'' : Registry} {home : RegistryId} {outside : List String}

/-- Schemas and types stand under the names of their classes, and the names that were noted are those
of the types. -/
structure Coherent (r : Registry) : Prop where
  schemas : r.NamesSchemas
  types : r.NamesTypes
  known : ∀ c, r.isKnown c = r.types.contains c

/-- One registry comes from another by adding schemas and types. -/
structure Grows (r r' : Registry) : Prop where
  schemas : ∀ c s, r.schemas.get? c = some s → r'.schemas.get? c = some s
  types : ∀ c t, r.types.get? c = some t → r'.types.get? c = some t

/-- In the list of types the bases of a type come before it, unless it was registered from outside. -/
def BasesFirst (outside : List String) (r : Registry) : Prop :=
  ∀ c t, r.types.get? c = some t → c ∉ outside →
    ∃ before after, r.types.values = before ++ t :: after ∧ ∀ b ∈ t.bases, b ∈ before

theorem Grows.refl (r : Registry) : r.Grows r := ⟨fun _ _ h => h, fun _ _ h => h⟩

theorem Grows.trans (h : r.Grows r') (h' : r'.Grows r'') : r.Grows r'' :=
  ⟨fun c s hs => h'.schemas c s (h.schemas c s hs), fun c t ht => h'.types c t (h.types c t ht)⟩

theorem Coherent.empty : ({} : Registry).Coherent :=
  ⟨fun _ _ h => by simp at h, fun _ _ h => by simp at h, fun _ => rfl⟩

theorem BasesFirst.empty : BasesFirst outside {} := fun _ _ h => by simp at h

theorem Coherent.isKnown_iff (hr : r.Coherent) {c : String} :
    r.isKnown c = true ↔ ∃ t, r.type c = .ok t := by
  rw [hr.known, OrderedMap.contains_iff_exists_get?]
  exact exists_congr fun t => type_eq_ok.symm

/-! ### Adding a type -/

theorem Coherent.insertType (hr : r.Coherent) (t : ClassType) : (r.insertType t).Coherent where
  schemas := hr.schemas
  types c u hu := by
    rw [Registry.insertType, OrderedMap.get?_insert] at hu
    split at hu
    · rename_i hc
      cases hu
      exact hc.symm
    · exact hr.types c u hu
  known c := by
    have hknown := hr.known c
    rw [isKnown] at hknown ⊢
    rw [contains_insertType, ← hknown, Registry.insertType]
    split
    · rename_i hold
      by_cases hc : c = t.name
      · simp only [hc, hold, Bool.or_true]
      · simp [hc]
    · by_cases hc : c = t.name <;> simp [hc]

theorem grows_insertType {t : ClassType} (hnew : r.types.contains t.name = false) :
    r.Grows (r.insertType t) :=
  ⟨fun _ _ h => h, (KeepsTypes.insertType (by simp [hnew])).types⟩

theorem values_insertType {t : ClassType} (hnew : r.types.contains t.name = false) :
    (r.insertType t).types.values = r.types.values ++ [t] := by
  rw [insertType, OrderedMap.values, OrderedMap.insert]
  simp [hnew, OrderedMap.values]

theorem BasesFirst.insertType {t : ClassType} (hr : BasesFirst outside r)
    (hnew : r.types.contains t.name = false)
    (ht : t.name ∉ outside → ∀ b ∈ t.bases, b ∈ r.types.values) :
    BasesFirst outside (r.insertType t) := by
  intro c u hu hc
  rw [values_insertType hnew]
  rw [Registry.insertType, OrderedMap.get?_insert] at hu
  split at hu
  · rename_i hname
    cases hu
    exact ⟨r.types.values, [], rfl, ht (hname ▸ hc)⟩
  · obtain ⟨before, after, hvalues, hbases⟩ := hr c u hu hc
    exact ⟨before, after ++ [t], by rw [hvalues, List.append_assoc, List.cons_append], hbases⟩

/-! ### Derivations and registrations -/

/-- What comes of a coherent registry when types are derived, whether that succeeds or fails. -/
structure Develops (r r' : Registry) : Prop where
  grows : r.Grows r'
  coherent : r.Coherent → r'.Coherent
  basesFirst : ∀ outside, r.BasesFirst outside → r'.BasesFirst outside

theorem Develops.refl (r : Registry) : r.Develops r := ⟨.refl r, id, fun _ => id⟩

theorem Develops.trans (h : r.Develops r') (h' : r'.Develops r'') : r.Develops r'' :=
  ⟨h.grows.trans h'.grows, h'.coherent ∘ h.coherent,
    fun outside hr => h'.basesFirst outside (h.basesFirst outside hr)⟩

theorem develops_insertType {s : ClassSchema} {t : ClassType}
    (hnew : r.types.contains s.name = false) (ht : r.derived? home s = some t) :
    r.Develops (r.insertType t) := by
  obtain ⟨rfl, hbases, -⟩ := derived?_eq_some ht
  refine ⟨grows_insertType hnew, fun hr => hr.insertType t, fun outside hr => ?_⟩
  refine hr.insertType hnew fun _ b hb => ?_
  have hmem : some b ∈ t.schema.superclasses.map r.types.get? :=
    option_mapM_eq_some.mp hbases ▸ List.mem_map_of_mem hb
  obtain ⟨c, -, hget⟩ := List.mem_map.mp hmem
  exact OrderedMap.mem_values_of_get? hget

theorem develops_derive (home : RegistryId) (names : List String) (r : Registry) :
    r.Develops (derive home names r).2 :=
  preserves_derive (fun _ _ _ hr hnew ht => hr.trans (develops_insertType hnew ht)) names r (.refl r)

theorem develops_deriveMissing (home : RegistryId) (r : Registry) :
    r.Develops (deriveMissing home r).2 :=
  preserves_deriveMissing (fun _ _ _ hr hnew ht => hr.trans (develops_insertType hnew ht)) r (.refl r)

/-- A derivation that succeeds gives back the types of the listed classes. -/
theorem types_of_derive {names : List String} {ts : List ClassType}
    (hrun : derive home names r = (.ok ts, r')) : names.map r'.type = ts.map .ok := by
  rw [derive, bind_of_ok (get_apply r)] at hrun
  obtain ⟨schemas, r₁, -, hrun⟩ := bind_eq_ok.mp hrun
  obtain ⟨_, r₂, hset, hrun⟩ := bind_eq_ok.mp hrun
  rw [set_apply] at hset
  obtain ⟨-, rfl⟩ := Prod.mk.inj hset
  split at hrun
  · rw [ofExcept_apply] at hrun
    obtain ⟨hts, rfl⟩ := Prod.mk.inj hrun
    exact except_mapM_eq_ok.mp hts
  · simp at hrun

theorem Coherent.type_of_derive (hr : r.Coherent) {names : List String} {ts : List ClassType}
    (hrun : derive home names r = (.ok ts, r')) {t : ClassType} (ht : t ∈ ts) :
    r'.type t.name = .ok t := by
  have hcoherent : r'.Coherent := by
    have hnext := (develops_derive home names r).coherent hr
    rwa [hrun] at hnext
  have hmem : .ok t ∈ names.map r'.type := types_of_derive hrun ▸ List.mem_map_of_mem ht
  obtain ⟨c, -, hget⟩ := List.mem_map.mp hmem
  rw [hcoherent.types c t (type_eq_ok.mp hget)]
  exact hget

/-- Where the missing types can be derived, they are given back, and every class that has a schema
has a type then. -/
theorem Coherent.deriveMissing_run (hr : r.Coherent) {ts : List ClassType}
    (hrun : deriveMissing home r = (.ok ts, r')) :
    (∀ t ∈ ts, r'.type t.name = .ok t) ∧ r'.schemas = r.schemas
      ∧ ∀ c, r'.schemas.contains c = true → r'.types.contains c = true := by
  rw [deriveMissing, bind_of_ok (get_apply r)] at hrun
  have hmissing : ∀ c ∈ r.schemas.keys.filter fun name => !r.types.contains name,
      r.schemas.contains c = true := fun c hc =>
    OrderedMap.contains_iff_mem_keys.mpr (List.mem_filter.mp hc).1
  obtain ⟨r₁, blocked, hderived, hderives, hblocked⟩ := derive_run home _ hr.schemas hmissing
  obtain ⟨hanswer, rfl⟩ := Prod.mk.inj (hderived.symm.trans hrun)
  have hall := (isOk_answer hblocked).mp (by rw [hanswer]; rfl)
  refine ⟨fun t ht => hr.type_of_derive hrun ht, hderives.schemas, fun c hc => ?_⟩
  rw [hderives.schemas] at hc
  cases hold : r.types.contains c with
  | true => exact hderives.kept.contains hold
  | false => exact hall c (List.mem_filter.mpr
      ⟨OrderedMap.contains_iff_mem_keys.mp hc, by simp [hold]⟩)

/-- Where every class that has a schema has a type, no type is missing. -/
theorem deriveMissing_nothing
    (hr : ∀ c, r.schemas.contains c = true → r.types.contains c = true) :
    deriveMissing home r = (.ok [], r) := by
  have hnone : (r.schemas.keys.filter fun name => !r.types.contains name) = [] := by
    refine List.filter_eq_nil_iff.mpr fun c hc => ?_
    simp [hr c (OrderedMap.contains_iff_mem_keys.mpr hc)]
  rw [deriveMissing, bind_of_ok (get_apply r), hnone, derive, bind_of_ok (get_apply r)]
  refine (bind_of_ok (pure_apply [] r)).trans ?_
  rw [List.mergeSort_nil, deriveWaiting.eq_def]
  rfl

/-- A registration gives back the type that there is, or makes the one that was asked for, or fails
where no schema is known. -/
theorem register_cases (hr : r.Coherent) (home : RegistryId) (c : String) (bases : List ClassType) :
    (∃ t, r.types.get? c = some t ∧ register home c bases r = (.ok t, r))
      ∨ (∃ s, r.types.contains c = false ∧ s.name = c
        ∧ register home c bases r
          = (.ok { schema := s, bases, home }, r.insertType { schema := s, bases, home }))
      ∨ ∃ e, r.types.contains c = false ∧ register home c bases r = (.error e, r) := by
  rw [register, bind_of_ok (get_apply r), ← OrderedMap.get?_isSome]
  cases htype : r.types.get? c with
  | some t => exact Or.inl ⟨t, rfl, rfl⟩
  | none =>
    refine Or.inr ?_
    cases hschema : r.schema c with
    | ok s =>
      refine Or.inl ⟨s, rfl, hr.schemas c s (schema_eq_ok.mp hschema), ?_⟩
      rfl
    | error e => exact Or.inr ⟨e, rfl, rfl⟩

/-- The classes registered from outside, after one more registration. -/
def registered (r r' : Registry) (c : String) (outside : List String) : List String :=
  if r.isKnown c = r'.isKnown c then outside else c :: outside

theorem register_run (hr : r.Coherent) (home : RegistryId) (c : String) (bases : List ClassType) :
    r.Grows (register home c bases r).2 ∧ (register home c bases r).2.Coherent
      ∧ (∀ t, (register home c bases r).1 = .ok t →
        t.name = c ∧ (register home c bases r).2.type c = .ok t)
      ∧ ∀ outside, r.BasesFirst outside → (register home c bases r).2.BasesFirst
        (registered r (register home c bases r).2 c outside) := by
  rcases register_cases hr home c bases with ⟨t, ht, hrun⟩ | ⟨s, hnew, rfl, hrun⟩ | ⟨e, hnew, hrun⟩
  all_goals rw [hrun]
  · refine ⟨.refl r, hr, ?_, fun outside h => by rwa [registered, if_pos rfl]⟩
    rintro _ ⟨⟩
    exact ⟨hr.types c t ht, type_eq_ok.mpr ht⟩
  · refine ⟨grows_insertType hnew, hr.insertType _, ?_, fun outside h => ?_⟩
    · rintro _ ⟨⟩
      exact ⟨rfl, type_eq_ok.mpr ((OrderedMap.get?_insert ..).trans (if_pos rfl))⟩
    · have hknown : (r.insertType { schema := s, bases, home }).isKnown s.name = true := by
        rw [(hr.insertType _).known, contains_insertType]
        simp [ClassType.name]
      have hlist : registered r (r.insertType { schema := s, bases, home }) s.name outside
          = s.name :: outside := by
        rw [registered, hknown, hr.known, hnew, if_neg Bool.false_ne_true]
      rw [hlist]
      refine BasesFirst.insertType (fun c t ht hc => h c t ht fun hmem => hc ?_) hnew fun hout => ?_
      · exact List.mem_cons_of_mem _ hmem
      · exact absurd List.mem_cons_self hout
  · exact ⟨.refl r, hr, by simp, fun outside h => by rwa [registered, if_pos rfl]⟩

end Registry

namespace RegistryId

variable {r : RegistryId} {u v w : World}

/-! ### Loading schemas -/

/-- One world comes from another by loading schemas of classes that had none. -/
structure LoadsSchemas (r : RegistryId) (v w : World) : Prop where
  only : v.ChangesOnly r w
  kept : ∀ c s, (v.registry r).schemas.get? c = some s → (w.registry r).schemas.get? c = some s
  named : (v.registry r).NamesSchemas → (w.registry r).NamesSchemas
  rest : w.registry r = { v.registry r with schemas := (w.registry r).schemas }

theorem loadSchema_error {c : String} {e : Error} (hrun : r.loadSchema c v = (.error e, w)) :
    ∃ ws, w = v.warn ws := by
  rw [loadSchema, bind_of_ok (get_apply v)] at hrun
  rcases bind_eq_error.mp hrun with hload | ⟨s, v₁, -, hrun⟩
  · rw [Action.logged_apply] at hload
    obtain ⟨-, rfl⟩ := Prod.mk.inj hload
    exact ⟨_, rfl⟩
  · simp at hrun

/-- Loading visible classes that are new leaves the schemas that there are, wherever it stops. -/
theorem preserves_loadSchema_new {c : String} (hr : r.index < v.registries.size)
    (hnew : (v.registry r).schemas.contains c = false) :
    Preserves (LoadsSchemas r v) (r.loadSchema c) := by
  intro w hw
  rcases hrun : r.loadSchema c w with ⟨e | u, w'⟩
  · obtain ⟨ws, rfl⟩ := loadSchema_error hrun
    exact ⟨hw.only.trans (World.changesOnly_warn w ws), hw.kept, hw.named, hw.rest⟩
  · obtain ⟨honly, s, hloaded, heq⟩ := loadSchema_run hrun (hw.only.size ▸ hr)
    refine ⟨hw.only.trans honly, fun d t ht => ?_, fun hnames d t ht => ?_, ?_⟩
    · have hne : d ≠ c := by
        rintro rfl
        rw [← OrderedMap.get?_isSome, ht] at hnew
        exact Bool.noConfusion hnew
      rw [heq, OrderedMap.get?_insert, if_neg hne]
      exact hw.kept d t ht
    · rw [heq, OrderedMap.get?_insert] at ht
      split at ht
      · rename_i hd
        cases ht
        exact hloaded.name_eq.trans hd.symm
      · exact hw.named hnames d t ht
    · rw [heq, hw.rest]

theorem loadsSchemas_refreshSchemas (hr : r.index < v.registries.size) :
    LoadsSchemas r v (r.refreshSchemas v).2 := by
  rw [refreshSchemas, bind_of_ok (get_apply v)]
  refine (Preserves.bind (Preserves.forM fun c hc => ?_) fun _ => preserves_pure _) v
    ⟨.refl r v, fun _ _ h => h, id, rfl⟩
  refine preserves_loadSchema_new hr ?_
  simpa using (List.mem_filter.mp hc).2

theorem refreshSchemas_contains {added : List String} (hr : r.index < v.registries.size)
    (hrun : r.refreshSchemas v = (.ok added, w)) :
    ∀ c ∈ v.store.classes, (w.registry r).schemas.contains c = true := by
  rw [refreshSchemas, bind_of_ok (get_apply v)] at hrun
  obtain ⟨_, v₁, hloop, hpure⟩ := bind_eq_ok.mp hrun
  obtain ⟨-, rfl⟩ := Prod.mk.inj hpure
  obtain ⟨-, hkept, hadded⟩ := forM_loadSchema_contains hr hloop
  intro c hc
  cases hold : (v.registry r).schemas.contains c with
  | true => exact hkept c hold
  | false => exact hadded c (List.mem_filter.mpr ⟨hc, by simp [hold]⟩)

theorem LoadsSchemas.develops (h : LoadsSchemas r v w) :
    (v.registry r).Develops (w.registry r) := by
  have htypes : (w.registry r).types = (v.registry r).types := by rw [h.rest]
  have hknown : (w.registry r).isKnown = (v.registry r).isKnown := by rw [h.rest]; rfl
  refine ⟨⟨h.kept, fun c t ht => htypes ▸ ht⟩, fun hv => ⟨h.named hv.schemas, ?_, ?_⟩, ?_⟩
  · exact fun c t ht => hv.types c t (htypes ▸ ht)
  · exact fun c => by rw [hknown, htypes, hv.known]
  · intro outside hv c t ht hc
    rw [htypes] at ht ⊢
    exact hv c t ht hc

/-! ### Calls -/

theorem refresh_develops (r : RegistryId) (hr : r.index < v.registries.size) :
    v.ChangesOnly r (r.refresh v).2 ∧ (v.registry r).Develops ((r.refresh v).2.registry r) := by
  have hloads := loadsSchemas_refreshSchemas (v := v) hr
  have hcases := r.refresh_cases v
  generalize (r.refreshSchemas v).2 = w at hloads hcases
  rcases hcases with hend | hend
  · rw [hend]
    exact ⟨hloads.only, hloads.develops⟩
  · rw [hend, Action.onRegistry_apply,
      World.registry_changeRegistry_self _ (hloads.only.size ▸ hr)]
    exact ⟨hloads.only.trans (World.changesOnly_changeRegistry _ _),
      hloads.develops.trans (Registry.develops_deriveMissing r _)⟩

theorem derive_develops (r : RegistryId) (hr : r.index < v.registries.size) (names : List String) :
    v.ChangesOnly r (r.derive names v).2
      ∧ (v.registry r).Develops ((r.derive names v).2.registry r) := by
  rw [derive, Action.onRegistry_apply, World.registry_changeRegistry_self _ hr]
  exact ⟨World.changesOnly_changeRegistry _ _, Registry.develops_derive r names _⟩

/-- A refresh that succeeds gives out what the registry says, and leaves a schema for every visible
class and a type for every schema. -/
theorem refresh_complete (hr : r.index < v.registries.size) (hv : (v.registry r).Coherent)
    {ts : List ClassType} (hrun : r.refresh v = (.ok ts, u)) :
    (∀ t ∈ ts, (u.registry r).type t.name = .ok t)
      ∧ (∀ c ∈ u.store.classes, (u.registry r).schemas.contains c = true)
      ∧ ∀ c, (u.registry r).schemas.contains c = true → (u.registry r).types.contains c = true := by
  obtain ⟨added, w, hschemas, hderive⟩ := bind_eq_ok.mp hrun
  have hloads := loadsSchemas_refreshSchemas (v := v) hr
  have hall := refreshSchemas_contains hr hschemas
  rw [hschemas] at hloads
  have hw := hloads.develops.coherent hv
  rw [Action.onRegistry_apply] at hderive
  obtain ⟨hresult, rfl⟩ := Prod.mk.inj hderive
  rw [World.registry_changeRegistry_self _ (hloads.only.size ▸ hr)]
  have hmissing : Registry.deriveMissing r (w.registry r)
      = (.ok ts, (Registry.deriveMissing r (w.registry r)).2) := Prod.ext hresult rfl
  obtain ⟨hgiven, hsame, htyped⟩ := hw.deriveMissing_run hmissing
  refine ⟨hgiven, fun c hc => ?_, htyped⟩
  rw [hsame]
  exact hall c (hloads.only.store ▸ hc)

/-- Where nothing is missing a refresh changes nothing. -/
theorem refresh_nothing (hschemas : ∀ c ∈ u.store.classes, (u.registry r).schemas.contains c = true)
    (htypes : ∀ c, (u.registry r).schemas.contains c = true →
      (u.registry r).types.contains c = true) : r.refresh u = (.ok [], u) := by
  have hnone : (u.store.classes.filter fun name => !(u.registry r).schemas.contains name) = [] :=
    List.filter_eq_nil_iff.mpr fun c hc => by simp [hschemas c hc]
  have hloaded : r.refreshSchemas u = (.ok [], u) := by
    rw [refreshSchemas, bind_of_ok (get_apply u), hnone]
    rfl
  rw [refresh, bind_of_ok hloaded, Action.onRegistry_apply, Registry.deriveMissing_nothing htypes]
  simp [World.changeRegistry, World.registry, Arena.change_read]

end RegistryId

/-- What a run of calls on a registry leads to, while the world around the registry changes at will.
The list names the classes whose types were registered from outside. -/
inductive Evolves (r : RegistryId) (v : World) : List String → World → Prop
  | start : Evolves r v [] v
  | around {outside : List String} {w w' : World} (h : Evolves r v outside w)
      (size : w.registries.size ≤ w'.registries.size)
      (schemas : (w'.registry r).schemas = (w.registry r).schemas)
      (types : (w'.registry r).types = (w.registry r).types)
      (known : (w'.registry r).known = (w.registry r).known) : Evolves r v outside w'
  | refresh {outside : List String} {w : World} (h : Evolves r v outside w) :
      Evolves r v outside (r.refresh w).2
  | derive {outside : List String} {w : World} (h : Evolves r v outside w) (names : List String) :
      Evolves r v outside (r.derive names w).2
  | register {outside : List String} {w : World} (h : Evolves r v outside w) (c : String)
      (bases : List ClassType) :
      Evolves r v (Registry.registered (w.registry r) ((r.register c bases w).2.registry r) c outside)
        (r.register c bases w).2

namespace Evolves

variable {r : RegistryId} {v w : World} {outside : List String}

theorem run (h : Evolves r v outside w) (hr : r.index < v.registries.size)
    (hv : (v.registry r).Coherent) :
    r.index < w.registries.size ∧ (w.registry r).Coherent
      ∧ (v.registry r).Grows (w.registry r)
      ∧ ((v.registry r).BasesFirst [] → (w.registry r).BasesFirst outside) := by
  induction h with
  | start => exact ⟨hr, hv, .refl _, id⟩
  | around h size schemas types known ih =>
    obtain ⟨hr, hcoherent, hgrows, hfirst⟩ := ih
    refine ⟨Nat.lt_of_lt_of_le hr size, ⟨?_, ?_, ?_⟩, ⟨?_, ?_⟩, ?_⟩
    · exact fun c s hs => hcoherent.schemas c s (schemas ▸ hs)
    · exact fun c t ht => hcoherent.types c t (types ▸ ht)
    · intro c
      have hknown := hcoherent.known c
      rw [Registry.isKnown] at hknown ⊢
      rw [known, types, hknown]
    · exact fun c s hs => schemas ▸ hgrows.schemas c s hs
    · exact fun c t ht => types ▸ hgrows.types c t ht
    · intro hstart c t ht hc
      rw [types] at ht ⊢
      exact hfirst hstart c t ht hc
  | refresh h ih =>
    obtain ⟨hr, hcoherent, hgrows, hfirst⟩ := ih
    obtain ⟨honly, hdevelops⟩ := r.refresh_develops hr
    exact ⟨Nat.lt_of_lt_of_eq hr honly.size.symm, hdevelops.coherent hcoherent,
      hgrows.trans hdevelops.grows, fun hstart => hdevelops.basesFirst _ (hfirst hstart)⟩
  | derive h names ih =>
    obtain ⟨hr, hcoherent, hgrows, hfirst⟩ := ih
    obtain ⟨honly, hdevelops⟩ := r.derive_develops hr names
    exact ⟨Nat.lt_of_lt_of_eq hr honly.size.symm, hdevelops.coherent hcoherent,
      hgrows.trans hdevelops.grows, fun hstart => hdevelops.basesFirst _ (hfirst hstart)⟩
  | @register outside w h c bases ih =>
    obtain ⟨hr, hcoherent, hgrows, hfirst⟩ := ih
    have hregistry : (r.register c bases w).2.registry r
        = (Registry.register r c bases (w.registry r)).2 := by
      rw [RegistryId.register, Action.onRegistry_apply, World.registry_changeRegistry_self _ hr]
    obtain ⟨hmore, hkeeps, -, hbases⟩ := Registry.register_run hcoherent r c bases
    rw [hregistry]
    refine ⟨?_, hkeeps, hgrows.trans hmore, fun hstart => hbases outside (hfirst hstart)⟩
    rw [RegistryId.register, Action.onRegistry_apply]
    simpa [World.changeRegistry] using hr

end Evolves

namespace RegistryId

variable {r : RegistryId} {w₀ w v : World} {outside : List String}

/-- Refreshing adds and catches up.  In every run from a new registry, a schema or a type that was
given out for a name is the one that is given out ever after; a name is known exactly when it has a
type; the bases of a type that was derived come before it; and a refresh that succeeds leaves a schema
and a type for every visible class and nothing for a second one, whatever failed before. -/
theorem refresh_additive (hnew : Action.newRegistry w₀ = (.ok r, w)) (h : Evolves r w outside v) :
    (∀ outside' u, Evolves r v outside' u →
        (∀ c s, (v.registry r).schema c = .ok s → (u.registry r).schema c = .ok s)
        ∧ ∀ c t, (v.registry r).type c = .ok t → (u.registry r).type c = .ok t)
      ∧ (∀ ts u, r.refresh v = (.ok ts, u) → ∀ t ∈ ts, (u.registry r).type t.name = .ok t)
      ∧ (∀ names ts u, r.derive names v = (.ok ts, u) →
        names.map (u.registry r).type = ts.map .ok)
      ∧ (∀ c bases t u, r.register c bases v = (.ok t, u) → (u.registry r).type c = .ok t)
      ∧ (∀ c, (v.registry r).isKnown c = true ↔ ∃ t, (v.registry r).type c = .ok t)
      ∧ (∀ c t, (v.registry r).type c = .ok t → c ∉ outside → ∃ before after,
        (v.registry r).types.values = before ++ t :: after ∧ ∀ b ∈ t.bases, b ∈ before)
      ∧ ∀ ts u, r.refresh v = (.ok ts, u) →
        (∀ c ∈ u.store.classes, (∃ s, (u.registry r).schema c = .ok s)
          ∧ ∃ t, (u.registry r).type c = .ok t)
        ∧ r.refresh u = (.ok [], u) := by
  obtain ⟨rfl, rfl⟩ : r = ⟨w₀.registries.size⟩ ∧ w = w₀.addRegistry {} [] := by
    rw [Action.newRegistry, bind_of_ok (get_apply w₀)] at hnew
    obtain ⟨hr, hw⟩ := Prod.mk.inj hnew
    exact ⟨(Except.ok.inj hr).symm, hw.symm.trans World.addRegistry_nil⟩
  have hfresh : (w₀.addRegistry {} []).registry ⟨w₀.registries.size⟩ = {} :=
    World.registry_addRegistry
  obtain ⟨hr, hcoherent, -, hfirst⟩ :=
    h.run (by simp [World.addRegistry]) (by rw [hfresh]; exact .empty)
  refine ⟨?later, ?refreshed, ?derived, ?registered, fun c => hcoherent.isKnown_iff, ?order, ?all⟩
  case later =>
    intro outside' u hu
    obtain ⟨-, -, hgrows, -⟩ := hu.run hr hcoherent
    exact ⟨fun c s hs => Registry.schema_eq_ok.mpr (hgrows.schemas c s (Registry.schema_eq_ok.mp hs)),
      fun c t ht => Registry.type_eq_ok.mpr (hgrows.types c t (Registry.type_eq_ok.mp ht))⟩
  case refreshed =>
    intro ts u hrun
    exact (refresh_complete hr hcoherent hrun).1
  case derived =>
    intro names ts u hrun
    rw [derive, Action.onRegistry_apply] at hrun
    obtain ⟨hresult, rfl⟩ := Prod.mk.inj hrun
    rw [World.registry_changeRegistry_self _ hr]
    exact Registry.types_of_derive (Prod.ext hresult rfl)
  case registered =>
    intro c bases t u hrun
    rw [register, Action.onRegistry_apply] at hrun
    obtain ⟨hresult, rfl⟩ := Prod.mk.inj hrun
    rw [World.registry_changeRegistry_self _ hr]
    obtain ⟨-, -, hgiven, -⟩ := Registry.register_run hcoherent _ c bases
    exact (hgiven t hresult).2
  case order =>
    intro c t ht
    exact hfirst (by rw [hfresh]; exact .empty) c t (Registry.type_eq_ok.mp ht)
  case all =>
    intro ts u hrun
    obtain ⟨-, hschemas, htypes⟩ := refresh_complete hr hcoherent hrun
    refine ⟨fun c hc => ⟨?_, ?_⟩, refresh_nothing hschemas htypes⟩
    · obtain ⟨s, hs⟩ := OrderedMap.contains_iff_exists_get?.mp (hschemas c hc)
      exact ⟨s, Registry.schema_eq_ok.mpr hs⟩
    · obtain ⟨t, ht⟩ := OrderedMap.contains_iff_exists_get?.mp (htypes c (hschemas c hc))
      exact ⟨t, Registry.type_eq_ok.mpr ht⟩

/-- A store with one class, whose attribute has a type of a given name. -/
def shelf (typeName : String) : Store :=
  { schemas := .insert .empty "books" { classes := [{
      name := "Book", attributes := [{ name := "note", type := typeName }] }] }
    databases := .insert .empty "library" { includes := ["books"] }
    loaded := ["library"] }

def shelfSchema : ClassSchema :=
  { name := "Book"
    attributes := .insert .empty "note" {
      name := "note", type := .text .string, multivalue := false, notNull := false
      rangeSource := none, initialSource := none, description := ""
      binding := some { range := .unbounded } } }

/-- The world in which a new registry meets the store. -/
def shelfWorld (typeName : String) : World := .addRegistry { store := shelf typeName } {} []

theorem refresh_mistyped : ∃ e, refresh ⟨0⟩ (shelfWorld "strng") = (.error e, shelfWorld "strng") :=
  ⟨_, rfl⟩

/-- A class that cannot be loaded at first is caught up with once its declaration is right. -/
theorem refresh_additive_shelf :
    ∃ e v ts u, refresh ⟨0⟩ (shelfWorld "strng") = (.error e, v)
      ∧ refresh ⟨0⟩ { v with store := shelf "string" } = (.ok ts, u)
      ∧ (∃ t, (u.registry ⟨0⟩).type "Book" = .ok t)
      ∧ refresh ⟨0⟩ u = (.ok [], u) := by
  obtain ⟨e, hfails⟩ := refresh_mistyped
  have hrun : refresh ⟨0⟩ (shelfWorld "string")
      = (.ok [{ schema := shelfSchema, bases := [], home := ⟨0⟩ }], _) :=
    refresh_single (w := { store := shelf "string" }) (s := shelfSchema) (by decide +kernel) rfl rfl
  have hnew : Action.newRegistry { store := shelf "strng" } = (.ok ⟨0⟩, shelfWorld "strng") := rfl
  have hevolves : Evolves ⟨0⟩ (shelfWorld "strng") [] (shelfWorld "string") := by
    have hfailed : Evolves ⟨0⟩ (shelfWorld "strng") [] _ := .refresh .start
    rw [hfails] at hfailed
    exact hfailed.around (Nat.le_refl _) rfl rfl rfl
  obtain ⟨-, -, -, -, -, -, hall⟩ := refresh_additive hnew hevolves
  obtain ⟨hvisible, hagain⟩ := hall _ _ hrun
  exact ⟨e, _, _, _, hfails, hrun, (hvisible "Book" (by decide +kernel)).2, hagain⟩

end RegistryId

end RecordGraph
