import RecordGraph.Proofs.Registry.Learning

/-!
Types that rest on each other.  A registry derives a type from the types that it has for the direct
superclasses, so that the names of a type take in those of every type above it, whatever the store has
come to show since.
-/

namespace RecordGraph

open RecordGraph.Computation

namespace Registry

/-- Types stand under the names of their classes, and their bases are types of the registry. -/
structure Rooted (r : Registry) : Prop where
  named : r.NamesTypes
  bases : ∀ c t, r.types.get? c = some t → ∀ b ∈ t.bases, r.types.get? b.name = some b

variable {r r' : Registry} {home : RegistryId} {t u : ClassType}

theorem rooted_empty : Rooted {} :=
  ⟨fun c t ht => by simp at ht, fun c t ht => by simp at ht⟩

theorem Rooted.of_eq (h : r.Rooted) (htypes : r'.types = r.types) : r'.Rooted := by
  obtain ⟨hnamed, hbases⟩ := h
  constructor
  · intro c t ht
    exact hnamed c t (htypes ▸ ht)
  · intro c t ht b hb
    rw [htypes] at ht ⊢
    exact hbases c t ht b hb

/-- Where a type has the name of another one among its own, it has all names of that one. -/
theorem Rooted.names_subset (h : r.Rooted) (ht : r.types.get? t.name = some t)
    (hu : r.types.get? u.name = some u) (hmem : u.name ∈ t.names) {n : String} (hn : n ∈ u.names) :
    n ∈ t.names := by
  have hclosed := ClassType.names_closed (P := fun v => r.types.get? v.name = some v)
    (R := fun a m => ∃ v, r.types.get? a = some v ∧ ∃ b ∈ v.bases, b.name = m)
    (fun v hv b hb => h.bases v.name v hv b hb)
    (fun v hv m ⟨v', hv', hm⟩ => Option.some.inj (hv.symm.trans hv') ▸ hm) ht
  have hsound := ClassType.collectNames_sound
    (fun v => r.types.get? v.name = some v ∧ v.name ∈ t.names)
    (fun v hv b hb => ⟨h.bases v.name v hv.1 b hb, hclosed _ hv.2 _ ⟨v, hv.1, b, hb, rfl⟩⟩)
    [u] [] (fun v hv => List.mem_singleton.mp hv ▸ ⟨hu, hmem⟩) hn
  rcases hsound with hn | ⟨v, hv, rfl⟩
  · simp at hn
  · exact hv.2

/-- A derived type rests on types of the registry. -/
theorem Rooted.insertType {s : ClassSchema} (h : r.Rooted) (hnew : r.types.contains s.name = false)
    (ht : r.derived? home s = some t) : (r.insertType t).Rooted := by
  have hkeeps := keepsTypes_insertType hnew ht
  refine ⟨hkeeps.named h.named, fun c u hu b hb => ?_⟩
  rw [Registry.insertType, OrderedMap.get?_insert] at hu
  split at hu
  · obtain rfl := Option.some.inj hu
    obtain ⟨-, hbases, -⟩ := derived?_eq_some ht
    have htypes : ∀ c v, r.types.get? c = some v → v.name = c ∧ r.types.get? v.name = some v :=
      fun c v hv => ⟨h.named c v hv, by rw [h.named c v hv, hv]⟩
    exact hkeeps.types _ _ ((bases_of_types htypes hbases).2 b hb)
  · exact hkeeps.types _ _ (h.bases c u hu b hb)

theorem preserves_rooted_derive (classNames : List String) :
    Preserves Rooted (derive home classNames) :=
  preserves_derive (fun _ _ _ hr hnew ht => hr.insertType hnew ht) classNames

end Registry

namespace World

/-- One world comes from another without losing an object, and without unrooting a registry. -/
structure Roots (v w : World) : Prop where
  objects : v.objects.size ≤ w.objects.size
  rooted : ∀ r, (v.registry r).Rooted → (w.registry r).Rooted

variable {u v w : World}

theorem Roots.refl (w : World) : w.Roots w := ⟨Nat.le_refl _, fun _ h => h⟩

theorem Roots.trans (huv : u.Roots v) (hvw : v.Roots w) : u.Roots w :=
  ⟨Nat.le_trans huv.objects hvw.objects, fun r h => hvw.rooted r (huv.rooted r h)⟩

theorem roots_of_types (hobjects : v.objects.size ≤ w.objects.size)
    (htypes : ∀ r, (w.registry r).types = (v.registry r).types) : v.Roots w :=
  ⟨hobjects, fun r h => h.of_eq (htypes r)⟩

theorem roots_changeRegistry (w : World) (r : RegistryId) {f : Registry → Registry}
    (hf : (w.registry r).Rooted → (f (w.registry r)).Rooted) : w.Roots (w.changeRegistry r f) := by
  refine ⟨Nat.le_refl _, fun other h => ?_⟩
  rw [registry_changeRegistry]
  split
  · rename_i heq
    exact hf (heq.1 ▸ h)
  · exact h

end World

namespace RegistryId

variable {v : World}

theorem roots_derive (r : RegistryId) (classNames : List String) :
    Preserves v.Roots (r.derive classNames) := by
  intro w hw
  rw [derive, Action.onRegistry_apply]
  exact hw.trans (World.roots_changeRegistry w r (Registry.preserves_rooted_derive classNames _))

/-- A refresh leaves registries rooted. -/
theorem roots_refresh (r : RegistryId) : Preserves v.Roots r.refresh := by
  refine r.preserves_refresh (fun w ws hw => ?_) (fun w c s hw => ?_) fun w hw => ?_
  · exact hw.trans (World.roots_of_types (Nat.le_refl _) fun _ => rfl)
  · exact hw.trans (World.roots_changeRegistry w r fun h => h.of_eq rfl)
  · exact hw.trans (World.roots_changeRegistry w r
      (Registry.preserves_deriveMissing (fun _ _ _ hr hnew ht => hr.insertType hnew ht) _))

end RegistryId

end RecordGraph
