import RecordGraph.Proofs.Registry.Refresh

/-!
What a refresh keeps, whether it succeeds or fails.  Types are derived once and for all: a refresh may
add types, and schemas may be loaded anew, but a class that has a type keeps it.  A refresh is put
together from reports, new schemas and derived types, and what each of these keeps is kept by all of it.
-/

namespace RecordGraph

open RecordGraph.Computation

namespace Registry

/-- Types stand under the names of their classes. -/
def NamesTypes (r : Registry) : Prop := ∀ c t, r.types.get? c = some t → t.name = c

/-- One registry comes from another without losing a type. -/
structure KeepsTypes (r r' : Registry) : Prop where
  types : ∀ c t, r.types.get? c = some t → r'.types.get? c = some t
  named : r.NamesTypes → r'.NamesTypes

variable {r r' r'' : Registry} {home : RegistryId}

theorem Consistent.namesTypes (h : r.Consistent) : r.NamesTypes := fun c t ht => (h c t ht).1

namespace KeepsTypes

theorem refl (r : Registry) : r.KeepsTypes r := ⟨fun _ _ h => h, fun h => h⟩

theorem trans (h : r.KeepsTypes r') (h' : r'.KeepsTypes r'') : r.KeepsTypes r'' :=
  ⟨fun c t ht => h'.types c t (h.types c t ht), fun hr => h'.named (h.named hr)⟩

theorem of_eq (h : r'.types = r.types) : r.KeepsTypes r' := by
  constructor
  · intro c t ht
    rwa [h]
  · intro hr c t ht
    exact hr c t (h ▸ ht)

/-- Adding a type under the name of its class. -/
theorem insertType {t : ClassType} (hnew : ¬ r.types.contains t.name = true) :
    r.KeepsTypes (r.insertType t) := by
  constructor
  · intro c u hu
    have hne : c ≠ t.name := by
      rintro rfl
      rw [← OrderedMap.get?_isSome, hu] at hnew
      simp at hnew
    rwa [Registry.insertType, OrderedMap.get?_insert, if_neg hne]
  · intro hr c u hu
    rw [Registry.insertType, OrderedMap.get?_insert] at hu
    split at hu
    · rename_i heq
      cases hu
      exact heq.symm
    · exact hr c u hu

end KeepsTypes

/-- What every type that is added keeps, the loop keeps. -/
theorem deriveWaiting_invariant {P : Registry → Prop} (home : RegistryId)
    (waiting : List ClassSchema) (stalled : Nat) (hr : P r)
    (hstep : ∀ r s t, P r → s ∈ waiting → r.types.contains s.name = false →
      r.derived? home s = some t → P (r.insertType t)) :
    P (r.deriveWaiting home waiting stalled).1 := by
  fun_induction deriveWaiting home r waiting stalled with
  | case1 r stalled => exact hr
  | case2 r s waiting stalled hdone ih =>
    exact ih hr fun r u t hr hu => hstep r u t hr (List.mem_cons_of_mem s hu)
  | case3 r s waiting stalled hnew t ht ih =>
    exact ih (hstep r s t hr List.mem_cons_self (Bool.eq_false_iff.mpr hnew) ht)
      fun r u t hr hu => hstep r u t hr (List.mem_cons_of_mem s hu)
  | case4 r s waiting stalled hnew hblocked hstall => exact hr
  | case5 r s waiting stalled hnew hblocked hstall ih =>
    refine ih hr fun r u t hr hu => hstep r u t hr ?_
    rcases List.mem_append.mp hu with hu | hu
    · exact List.mem_cons_of_mem s hu
    · exact List.mem_singleton.mp hu ▸ List.mem_cons_self

theorem keepsTypes_insertType {s : ClassSchema} {t : ClassType}
    (hnew : r.types.contains s.name = false) (ht : r.derived? home s = some t) :
    r.KeepsTypes (r.insertType t) := by
  obtain ⟨rfl, -, -⟩ := derived?_eq_some ht
  exact .insertType (Bool.eq_false_iff.mp hnew)

theorem keepsTypes_deriveWaiting (home : RegistryId) (r : Registry) (waiting : List ClassSchema)
    (stalled : Nat) : r.KeepsTypes (r.deriveWaiting home waiting stalled).1 :=
  deriveWaiting_invariant home waiting stalled (.refl r) fun _ _ _ hr _ hnew ht =>
    hr.trans (keepsTypes_insertType hnew ht)

/-- What every type that is added keeps, a derivation keeps, and it keeps it where it fails.  Types are
made for schemas that the registry has. -/
theorem preserves_derive_schema {P : Registry → Prop}
    (hstep : ∀ r s t, P r → (∃ c, r.schemas.get? c = some s) → r.types.contains s.name = false →
      r.derived? home s = some t → P (r.insertType t)) (classNames : List String) :
    Preserves P (derive home classNames) := by
  intro r hr
  rw [derive, bind_of_ok (get_apply r)]
  cases hschemas : classNames.mapM r.schema with
  | error e =>
    rw [bind_of_error (ofExcept_apply _ r)]
    exact hr
  | ok schemas =>
    rw [bind_of_ok (ofExcept_apply _ r)]
    have hloop := deriveWaiting_invariant (P := fun r' => P r' ∧ r'.schemas = r.schemas) home
      (schemas.mergeSort fun s t => s.ancestors.length ≤ t.ancestors.length) 0 ⟨hr, rfl⟩
      fun r' s t hr' hs hnew ht => by
        obtain ⟨c, -, hget⟩ := (mapM_schema hschemas).1 s (List.mem_mergeSort.mp hs)
        exact ⟨hstep r' s t hr'.1 ⟨c, hr'.2 ▸ hget⟩ hnew ht, hr'.2⟩
    refine Preserves.bind (fun _ _ => hloop.1) (fun _ => ?_) r hr
    split
    · exact (reads_ofExcept _).preserves
    · exact (reads_throw _).preserves

theorem preserves_derive {P : Registry → Prop}
    (hstep : ∀ r s t, P r → r.types.contains s.name = false → r.derived? home s = some t →
      P (r.insertType t)) (classNames : List String) : Preserves P (derive home classNames) :=
  preserves_derive_schema (fun r s t hr _ => hstep r s t hr) classNames

theorem preserves_deriveMissing {P : Registry → Prop}
    (hstep : ∀ r s t, P r → r.types.contains s.name = false → r.derived? home s = some t →
      P (r.insertType t)) : Preserves P (deriveMissing home) :=
  reads_get.preserves.bind fun _ => preserves_derive hstep _

end Registry

namespace RegistryId

section Keeping

variable {P : World → Prop} (r : RegistryId) (hwarn : ∀ w ws, P w → P (w.warn ws))
  (hschema : ∀ w c s, P w →
    P (w.changeRegistry r fun reg => { reg with schemas := reg.schemas.insert c s }))

include hwarn hschema

/-- What reports and new schemas of a registry keep, loading a schema keeps. -/
theorem preserves_loadSchema (c : String) : Preserves P (r.loadSchema c) := by
  refine reads_get.preserves.bind fun w => Preserves.bind (fun w hw => ?_) fun s =>
    preserves_modify fun w hw => hschema w c s hw
  rw [Action.logged_apply]
  exact hwarn w _ hw

theorem preserves_refreshSchemas : Preserves P r.refreshSchemas :=
  reads_get.preserves.bind fun _ =>
    (Preserves.forM fun c _ => r.preserves_loadSchema hwarn hschema c).bind fun _ => preserves_pure _

/-- What the derivation of missing types keeps as well, a refresh keeps, whether it succeeds or fails. -/
theorem preserves_refresh
    (hderive : ∀ w, P w → P (w.changeRegistry r fun _ => (Registry.deriveMissing r (w.registry r)).2)) :
    Preserves P r.refresh :=
  (r.preserves_refreshSchemas hwarn hschema).bind fun _ w hw => hderive w hw

end Keeping

/-- A refresh ends where the schemas were loaded, or where the missing types were derived after that. -/
theorem refresh_cases (r : RegistryId) (w : World) :
    (r.refresh w).2 = (r.refreshSchemas w).2
      ∨ (r.refresh w).2
        = (Action.onRegistry r (Registry.deriveMissing r) (r.refreshSchemas w).2).2 := by
  rw [refresh, bind_apply]
  rcases r.refreshSchemas w with ⟨e | added, t⟩
  · exact .inl rfl
  · exact .inr rfl

/-- A refresh changes nothing but its registry and the reports. -/
theorem preserves_changesOnly_refresh {v : World} (r : RegistryId) :
    Preserves (v.ChangesOnly r) r.refresh :=
  r.preserves_refresh (fun w ws hw => hw.trans (World.changesOnly_warn w ws))
    (fun w _ _ hw => hw.trans (World.changesOnly_changeRegistry w _))
    fun w hw => hw.trans (World.changesOnly_changeRegistry w _)

end RegistryId

end RecordGraph
