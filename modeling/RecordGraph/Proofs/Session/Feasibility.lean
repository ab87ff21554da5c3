import RecordGraph.Proofs.Session.Collecting

/-!
Which records can be hydrated.  Whether a record can be does not depend on what was hydrated before it:
nothing has to be loaded for a record that is covered already, and a fuller cache covers whatever the
loading of other records would have come to cover.
-/

namespace RecordGraph

open RecordGraph.Computation Workspace

namespace Session

variable {base s t u : Workspace} {p : ProxyId} {o : ObjectId} {ps : List ProxyId}
  {next : Pending} {pending found : List Pending} {r : RecordRef} {L : RecordRef → Prop}

/-- A record can be hydrated. -/
def CanHydrate (s : Workspace) (r : RecordRef) : Prop :=
  ∃ p t o u, proxyFor r s = (.ok p, t) ∧ hydrate p t = (.ok o, u)

/-- Every visible record of a visible class can be hydrated. -/
def AllHydratable (s : Workspace) : Prop := ∀ r, s.world.store.Listed r → CanHydrate s r

/-! ### What it takes to hydrate a record -/

/-- The fields of a record can be loaded. -/
def Readable (base : Workspace) (r : RecordRef) : Prop := ∃ schema, base.Legible r schema

/-- The object of a record can be made and loaded, and so can those of the records that it leads to
as far as they have none. -/
def Feasible (base : Workspace) (r : RecordRef) : Prop :=
  ∃ type schema L, base.registry.types.get? r.className = some type ∧ base.Legible r schema
    ∧ Fills base.registry.types (Readable base) (covering base.covers type r.id)
        (base.leads r schema) L

/-- A record without an object that can be hydrated has all that it takes. -/
theorem feasible_of_canHydrate (hnamed : base.registry.NamesTypes) (hr : base.world.store.Visible r)
    (hnew : ¬ base.covers r) (h : CanHydrate base r) : Feasible base r := by
  obtain ⟨p, s, o, u, hproxy, hrun⟩ := h
  obtain ⟨hlooked, hview, hrecord⟩ := proxyFor_collects (collecting_start base) hr hproxy
  have hcovers : s.covers = base.covers := by
    obtain ⟨_, -, -, rfl⟩ := proxyFor_eq_ok hproxy
    rfl
  obtain ⟨⟨x, new⟩, m, hfind, hrest⟩ := bind_eq_ok.mp hrun
  obtain ⟨hfound, -⟩ := objectOf_collects hlooked.collecting hnamed hview hfind
  have hfills := hfound.fills
  rw [hrecord, hcovers] at hfills
  generalize hend : m.covers = K at hfills
  cases hfills with
  | covered old _ => exact absurd old hnew
  | @make _ _ _ _ type _ known hmade rest =>
    cases rest
    cases new with
    | false =>
      obtain ⟨_, hnone, -⟩ := hmade
      cases hnone
    | true =>
      simp only [if_true] at hrest
      rw [bind_of_ok (get_apply m)] at hrest
      obtain ⟨_, s₁, hload, -⟩ := bind_eq_ok.mp hrest
      obtain ⟨pending, s₂, hfields, hpending⟩ := bind_eq_ok.mp hload
      have hroot := hfound.views ⟨p, x⟩ (List.mem_singleton_self _)
      obtain ⟨hlegible, hharvest⟩ := loadFields_collects hfound.collecting hnamed hroot hfields
      obtain ⟨-, hall⟩ := loadPending_collects _ hharvest.collecting hnamed (fun other hother =>
        hharvest.views other (List.mem_reverse.mp (by simpa using hother))) hpending
      have hsteps : (pending.reverse ++ []).length + s₂.uncached ≤ m.world.store.recordCount := by
        have hless := hharvest.uncached
        have hbound := m.uncached_le
        rw [List.append_nil, List.length_reverse]
        omega
      rw [hfound.gains.record p hview.bound, hrecord] at hlegible hharvest
      have hfills := hharvest.fills
      rw [hend] at hfills
      refine ⟨type, _, _, known, hlegible, hfills.imp fun q ⟨other, hother, hq⟩ => ?_⟩
      exact ⟨_, hq ▸ hall hsteps other (by simpa using hother)⟩

/-! ### Hydrating what can be hydrated -/

/-- A new object waits to be loaded: it was made for a record whose fields can be loaded, and is cached
under all names of the record's class. -/
structure Waits (base t : Workspace) (next : Pending) : Prop extends base.Views t next.proxy where
  new : ¬ base.covers (t.world.recordOf next.proxy)
  readable : Readable base (t.world.recordOf next.proxy)
  covered : ∃ type, base.registry.types.get? (t.world.recordOf next.proxy).className = some type
    ∧ ∀ n ∈ type.names, t.covers ⟨n, (t.world.recordOf next.proxy).id⟩

theorem Waits.gain (h : Waits base t next) (htu : t.Gains u) : Waits base u next where
  toViews := h.toViews.gain htu
  new := by
    rw [htu.record _ h.bound]
    exact h.new
  readable := by
    rw [htu.record _ h.bound]
    exact h.readable
  covered := by
    rw [htu.record _ h.bound]
    obtain ⟨type, htype, hnames⟩ := h.covered
    exact ⟨type, htype, fun n hn => htu.populates.cached?_isSome (hnames n hn)⟩

end Session

end RecordGraph
