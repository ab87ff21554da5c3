import Mathlib.Data.List.Forall2
import RecordGraph.Proofs.Object.Building
import RecordGraph.Proofs.Proxy.Writing
import RecordGraph.Proofs.Registry.Evolution

/-!
Membership of classes.  While no class is defined anew, the three ways to tell whether a class belongs
to another agree: by walking the types, by the names that a type lists, and by the ancestors that the
schema was loaded with.  Objects and proxies therefore admit the same targets for a relation.
-/

namespace RecordGraph

open RecordGraph.Computation

namespace Hierarchy

variable {h book : Hierarchy} {a b c n : String}

/-- A hierarchy shows classes only as a book defines them. -/
def KeepsTo (h book : Hierarchy) : Prop :=
  ∀ c d, h.classes.get? c = some d → book.classes.get? c = some d

theorem KeepsTo.refl (h : Hierarchy) : h.KeepsTo h := fun _ _ hd => hd

theorem KeepsTo.step (hk : h.KeepsTo book) (hab : h.superGraph.Step a b) :
    book.superGraph.Step a b := by
  obtain ⟨d, hd, hb⟩ := step_superGraph.mp hab
  exact step_superGraph.mpr ⟨d, hk a d hd, hb⟩

/-- Where all ancestors of a class are visible, its ancestors are those in the book. -/
theorem KeepsTo.isA_iff (hk : h.KeepsTo book)
    (hall : ∀ a, h.isA c a = true → ∃ d, h.classes.get? a = some d) :
    h.isA c n = true ↔ book.isA c n = true := by
  rw [isA_iff_leads, isA_iff_leads]
  constructor
  · intro hleads
    induction hleads with
    | refl => exact .refl c
    | tail _ hstep ih => exact .tail ih (hk.step hstep)
  · intro hleads
    induction hleads with
    | refl => exact .refl c
    | @tail a b _ hstep ih =>
      obtain ⟨d, hd⟩ := hall a (isA_iff_leads.mpr ih)
      obtain ⟨d', hd', hb⟩ := step_superGraph.mp hstep
      obtain rfl := Option.some.inj ((hk a d hd).symm.trans hd')
      exact .tail ih (step_superGraph.mpr ⟨d, hd, hb⟩)

end Hierarchy

namespace Registry

variable {book : Hierarchy} {r : Registry} {home : RegistryId} {c n : String}

/-- What a registry knows is what a book of definitions says, though it may have read the classes from
the book at different times. -/
structure Follows (r : Registry) (book : Hierarchy) : Prop where
  schemas : ∀ c s, r.schemas.get? c = some s →
    ∃ h : Hierarchy, h.KeepsTo book ∧ ClassSchema.LoadedFrom h c s
  types : ∀ c t, r.types.get? c = some t →
    t.name = c ∧ r.schemas.get? c = some t.schema ∧ t.Shows book

theorem follows_empty (book : Hierarchy) : ({} : Registry).Follows book :=
  ⟨fun _ _ h => by simp at h, fun _ _ h => by simp at h⟩

theorem Follows.insertSchema (hr : r.Follows book) {h : Hierarchy} {s : ClassSchema}
    (hnew : r.types.contains c = false) (hk : h.KeepsTo book) (hs : ClassSchema.LoadedFrom h c s) :
    Follows { r with schemas := r.schemas.insert c s } book := by
  constructor
  · intro c' s' hget
    rw [OrderedMap.get?_insert] at hget
    split at hget
    · rename_i heq
      cases hget
      exact ⟨h, hk, heq ▸ hs⟩
    · exact hr.schemas c' s' hget
  · intro c' t ht
    obtain ⟨hname, hschema, hshows⟩ := hr.types c' t ht
    have hne : c' ≠ c := by
      rintro rfl
      rw [← OrderedMap.get?_isSome, ht] at hnew
      exact Bool.noConfusion hnew
    exact ⟨hname, by rw [OrderedMap.get?_insert, if_neg hne, hschema], hshows⟩

/-- A type whose bases were found shows the book, as the bases do. -/
theorem Follows.insertType (hr : r.Follows book) {s : ClassSchema} {t : ClassType}
    (hs : ∃ c, r.schemas.get? c = some s) (ht : r.derived? home s = some t) :
    (r.insertType t).Follows book := by
  obtain ⟨c, hget⟩ := hs
  obtain ⟨rfl, hbases, -⟩ := derived?_eq_some ht
  obtain ⟨h, hk, hloaded⟩ := hr.schemas c t.schema hget
  obtain ⟨d, hdeclared, hsuper⟩ := hloaded.declared
  have hname : t.name = c := hloaded.name_eq
  obtain ⟨hnames, hshows⟩ :=
    bases_of_types (fun c u hu => ⟨(hr.types c u hu).1, (hr.types c u hu).2.2⟩) hbases
  refine ⟨hr.schemas, fun c' u hu => ?_⟩
  rw [Registry.insertType, OrderedMap.get?_insert] at hu
  split at hu
  · rename_i heq
    cases hu
    subst heq
    rw [hname]
    exact ⟨rfl, hget, .intro (hname ▸ hk c d hdeclared) (hnames.trans hsuper) hshows⟩
  · exact hr.types c' u hu

theorem follows_derive (hr : r.Follows book) (names : List String) :
    (derive home names r).2.Follows book :=
  preserves_derive_schema (P := (·.Follows book)) (fun _ _ _ hr hs _ ht => hr.insertType hs ht)
    names r hr

theorem follows_deriveMissing (hr : r.Follows book) : (deriveMissing home r).2.Follows book := by
  rw [deriveMissing, bind_of_ok (get_apply r)]
  exact follows_derive hr _

/-! ### The three ways to tell membership -/

theorem Follows.schema_isA_iff (hr : r.Follows book) {s : ClassSchema}
    (hs : r.schemas.get? c = some s) : s.isA n = true ↔ book.isA c n = true := by
  obtain ⟨h, hk, hloaded⟩ := hr.schemas c s hs
  rw [hloaded.isA_eq]
  exact hk.isA_iff fun _ => hloaded.visible

theorem Follows.type_isA_iff (hr : r.Follows book) {t : ClassType}
    (ht : r.types.get? c = some t) : t.isA n = true ↔ t.schema.isA n = true := by
  obtain ⟨rfl, hschema, hshows⟩ := hr.types c t ht
  rw [hshows.isA_iff, hr.schema_isA_iff hschema]

theorem Follows.mem_names_iff (hr : r.Follows book) {t : ClassType}
    (ht : r.types.get? c = some t) : n ∈ t.names ↔ t.isA n = true := by
  obtain ⟨-, -, hshows⟩ := hr.types c t ht
  rw [hshows.mem_names_iff, hshows.isA_iff]

end Registry

namespace RegistryId

variable {r : RegistryId} {book : Hierarchy} {v w : World}

theorem follows_loadSchema {c : String} (hr : r.index < v.registries.size)
    (hk : v.store.hierarchy.KeepsTo book) (hnew : (v.registry r).types.contains c = false)
    (hv : (v.registry r).Follows book) : ((r.loadSchema c v).2.registry r).Follows book := by
  rcases hrun : r.loadSchema c v with ⟨e | u, w⟩
  · obtain ⟨ws, rfl⟩ := loadSchema_error hrun
    exact hv
  · obtain ⟨-, s, hloaded, heq⟩ := loadSchema_run hrun hr
    exact heq ▸ hv.insertSchema hnew hk hloaded

theorem follows_refreshSchemas (hr : r.index < v.registries.size)
    (hk : v.store.hierarchy.KeepsTo book) (hv : (v.registry r).Follows book) :
    ((r.refreshSchemas v).2.registry r).Follows book := by
  rw [refreshSchemas, bind_of_ok (get_apply v)]
  have hloop : Preserves (fun w => LoadsSchemas r v w ∧ (w.registry r).Follows book)
      ((v.store.classes.filter fun name => !(v.registry r).schemas.contains name).forM
        r.loadSchema) := by
    refine Preserves.forM fun c hc w hw => ?_
    have hnew : (v.registry r).schemas.contains c = false := by
      simpa using (List.mem_filter.mp hc).2
    refine ⟨preserves_loadSchema_new hr hnew w hw.1, follows_loadSchema (hw.1.only.size ▸ hr)
      (hw.1.only.store ▸ hk) ?_ hw.2⟩
    -- a class has a schema where it has a type
    rw [hw.1.rest]
    refine Bool.eq_false_iff.mpr fun htype => ?_
    obtain ⟨t, ht⟩ := OrderedMap.contains_iff_exists_get?.mp htype
    rw [← OrderedMap.get?_isSome, (hv.types c t ht).2.1] at hnew
    exact Bool.noConfusion hnew
  exact (hloop.bind (fun _ => preserves_pure _) v
    ⟨⟨.refl r v, fun _ _ h => h, id, rfl⟩, hv⟩).2

theorem follows_refresh (hr : r.index < v.registries.size) (hk : v.store.hierarchy.KeepsTo book)
    (hv : (v.registry r).Follows book) : ((r.refresh v).2.registry r).Follows book := by
  have hloads := loadsSchemas_refreshSchemas (v := v) hr
  have hschemas := follows_refreshSchemas hr hk hv
  have hcases := r.refresh_cases v
  generalize (r.refreshSchemas v).2 = w at hloads hschemas hcases
  rcases hcases with hend | hend
  · rw [hend]
    exact hschemas
  · rw [hend, Action.onRegistry_apply,
      World.registry_changeRegistry_self _ (hloads.only.size ▸ hr)]
    exact Registry.follows_deriveMissing hschemas

end RegistryId

/-- What a run of refreshes and derivations leads to, while the world around the registry changes at
will.  The store shows classes only as a book defines them when schemas are loaded. -/
inductive Gathers (book : Hierarchy) (r : RegistryId) (v : World) : World → Prop
  | start : Gathers book r v v
  | around {w w' : World} (h : Gathers book r v w)
      (size : w.registries.size ≤ w'.registries.size)
      (schemas : (w'.registry r).schemas = (w.registry r).schemas)
      (types : (w'.registry r).types = (w.registry r).types) : Gathers book r v w'
  | refreshSchemas {w : World} (h : Gathers book r v w)
      (defined : w.store.hierarchy.KeepsTo book) : Gathers book r v (r.refreshSchemas w).2
  | refresh {w : World} (h : Gathers book r v w) (defined : w.store.hierarchy.KeepsTo book) :
      Gathers book r v (r.refresh w).2
  | derive {w : World} (h : Gathers book r v w) (names : List String) :
      Gathers book r v (r.derive names w).2

theorem Gathers.follows {book : Hierarchy} {r : RegistryId} {v w : World} (h : Gathers book r v w)
    (hr : r.index < v.registries.size) (hv : (v.registry r).Follows book) :
    r.index < w.registries.size ∧ (w.registry r).Follows book := by
  induction h with
  | start => exact ⟨hr, hv⟩
  | around h size schemas types ih =>
    obtain ⟨hr, hfollows⟩ := ih
    refine ⟨Nat.lt_of_lt_of_le hr size, fun c s hs => hfollows.schemas c s (schemas ▸ hs), ?_⟩
    intro c t ht
    rw [schemas]
    exact hfollows.types c t (types ▸ ht)
  | refreshSchemas h defined ih =>
    obtain ⟨hr, hfollows⟩ := ih
    have hsize := (RegistryId.loadsSchemas_refreshSchemas hr).only.size
    exact ⟨Nat.lt_of_lt_of_eq hr hsize.symm, RegistryId.follows_refreshSchemas hr defined hfollows⟩
  | refresh h defined ih =>
    obtain ⟨hr, hfollows⟩ := ih
    obtain ⟨honly, -⟩ := r.refresh_develops hr
    exact ⟨Nat.lt_of_lt_of_eq hr honly.size.symm, RegistryId.follows_refresh hr defined hfollows⟩
  | derive h names ih =>
    obtain ⟨hr, hfollows⟩ := ih
    obtain ⟨honly, -⟩ := r.derive_develops hr names
    refine ⟨Nat.lt_of_lt_of_eq hr honly.size.symm, ?_⟩
    rw [RegistryId.derive, Action.onRegistry_apply, World.registry_changeRegistry_self _ hr]
    exact Registry.follows_derive hfollows names

/-! ### Targets of relations -/

namespace World

variable {w : World} {r : RegistryId} {book : Hierarchy}

/-- An object and a proxy of one class of a registry. -/
structure OfClass (w : World) (r : RegistryId) (c : String) (o : ObjectId) (p : ProxyId) : Prop where
  object : (w.registry r).type c = .ok (w.object o).type
  proxy : (w.registry r).schema c = .ok (w.proxy p).schema

/-- A field of an object and a relation of a record that lead to targets of the same classes. -/
inductive Alike (w : World) (r : RegistryId) : Field → Related → Prop
  | one {c : String} {t : ObjectId} {q : ProxyId} (same : w.OfClass r c t q) :
      Alike w r (.object t) (.one (some q))
  | many {ts : List ObjectId} {qs : List ProxyId}
      (same : List.Forall₂ (fun t q => ∃ c, w.OfClass r c t q) ts qs) :
      Alike w r (.objects ts) (.many qs)

theorem OfClass.schema_eq {c : String} {o : ObjectId} {p : ProxyId} (h : w.OfClass r c o p)
    (hr : (w.registry r).Follows book) : (w.object o).schema = (w.proxy p).schema := by
  obtain ⟨-, hschema, -⟩ := hr.types c _ (Registry.type_eq_ok.mp h.object)
  exact Option.some.inj (hschema.symm.trans (Registry.schema_eq_ok.mp h.proxy))

theorem OfClass.isA_iff {c n : String} {o : ObjectId} {p : ProxyId} (h : w.OfClass r c o p)
    (hr : (w.registry r).Follows book) :
    (w.object o).type.isA n = true ↔ (w.proxy p).schema.isA n = true := by
  rw [hr.type_isA_iff (Registry.type_eq_ok.mp h.object), ← h.schema_eq hr]
  rfl

theorem checkRelated_eq_ok {p : ProxyId} {rel : Relation} {related : Related} :
    ProxyId.checkRelated w p rel related = .ok () ↔ related.isMany = rel.multivalue
      ∧ ∀ q ∈ related.targets, (w.proxy q).schema.isA rel.target = true := by
  have hfind : (∀ q ∈ related.targets, (w.proxy q).schema.isA rel.target = true)
      ↔ (related.targets.find? fun q => !(w.proxy q).schema.isA rel.target) = none := by
    simp [List.find?_eq_none]
  unfold ProxyId.checkRelated
  rw [hfind]
  cases related.isMany <;> cases rel.multivalue <;> simp <;> split <;> simp_all

/-- Objects and proxies are checked alike. -/
theorem Alike.check_iff {f : Field} {related : Related} (h : w.Alike r f related)
    (hr : (w.registry r).Follows book) (o : Object) (p : ProxyId) (rel : Relation) :
    w.checkTargets o rel f = .ok f ↔ ProxyId.checkRelated w p rel related = .ok () := by
  rw [checkTargets_eq_ok, checkRelated_eq_ok]
  cases h with
  | one same =>
    simp [Field.Points, Field.targets, Related.isMany, Related.targets, same.isA_iff hr,
      @eq_comm _ false]
  | @many ts qs same =>
    have htargets : (∀ t ∈ ts, (w.object t).type.isA rel.target = true)
        ↔ ∀ q ∈ qs, (w.proxy q).schema.isA rel.target = true := by
      induction same with
      | nil => simp
      | cons hsame _ ih =>
        obtain ⟨c, hsame⟩ := hsame
        simp only [List.forall_mem_cons, hsame.isA_iff hr, ih]
    simp [Field.Points, Field.targets, Related.isMany, Related.targets, htargets, @eq_comm _ true]

/-- A relation of an object is set exactly when its targets pass the check. -/
theorem set_relation_eq_ok {o : ObjectId} {name : String} {rel : Relation} {f : Field}
    (hname : name ≠ "id") (hnone : (w.object o).schema.attribute? name = none)
    (hrel : (w.object o).schema.relation? name = some rel) (hset : f.isUnset = false) :
    (o.set name f w).1 = .ok () ↔ w.checkTargets (w.object o) rel f = .ok f := by
  have haccept : w.accept (w.object o) name f = w.checkTargets (w.object o) rel f := by
    unfold accept
    simp [hset, hnone, hrel]
  unfold ObjectId.set
  rw [if_neg hname]
  cases hcheck : w.checkTargets (w.object o) rel f with
  | error e => rw [bind_of_error (e := e) (by rw [Action.ask_apply, haccept, hcheck])]; simp
  | ok g =>
    rw [bind_of_ok (a := g) (by rw [Action.ask_apply, haccept, hcheck]),
      (checkTargets_eq_ok.mp hcheck).1]
    simp

theorem setRelation_eq_ok {p : ProxyId} {name : String} {rel : Relation} {related : Related}
    (hrel : (w.proxy p).schema.relation? name = some rel) :
    (p.setRelation name related w).1 = .ok () ↔ ProxyId.checkRelated w p rel related = .ok ()
      ∧ ∃ place, w.store.writePlace (w.recordOf p) name rel.accessor (related.toValue w.recordOf)
        = .ok place := by
  have hwrite : (p.setRelation name related w).1 = .ok ()
      ↔ ∃ place, w.relationWrite p name related = .ok place := by
    rw [ProxyId.setRelation_apply]
    cases w.relationWrite p name related <;> simp
  rw [hwrite]
  constructor
  · rintro ⟨place, hplace⟩
    obtain ⟨rel', hrel', hcheck, hplace⟩ := relationWrite_eq_ok.mp hplace
    cases hrel.symm.trans hrel'
    exact ⟨hcheck, place, hplace⟩
  · rintro ⟨hcheck, place, hplace⟩
    exact ⟨place, relationWrite_eq_ok.mpr ⟨rel, hrel, hcheck, hplace⟩⟩

theorem Alike.isUnset_eq {f : Field} {related : Related} (h : w.Alike r f related) :
    f.isUnset = false := by
  cases h <;> rfl

end World

namespace RegistryId

variable {r : RegistryId} {book : Hierarchy} {w₀ w v : World}

/-- Objects and proxies agree on membership.  In every run from a new registry that follows one book of
definitions, walking the types, the names that a type lists and the loaded ancestors tell the same; for
a relation of a class an object admits the targets that a proxy admits, and the proxy's write only
depends on the store beyond that. -/
theorem membership_agrees (hnew : Action.newRegistry w₀ = (.ok r, w)) (h : Gathers book r w v) :
    (∀ c t, (v.registry r).type c = .ok t → ∀ n,
        (t.isA n = true ↔ n ∈ t.names) ∧ (t.isA n = true ↔ t.schema.isA n = true))
      ∧ ∀ c o p, v.OfClass r c o p → ∀ name rel f related,
        (v.object o).schema.relation? name = some rel → v.Alike r f related →
        (v.checkTargets (v.object o) rel f = .ok f
            ↔ ProxyId.checkRelated v p rel related = .ok ())
        ∧ (name ≠ "id" → (v.object o).schema.attribute? name = none →
          ((p.setRelation name related v).1 = .ok () ↔ (o.set name f v).1 = .ok ()
            ∧ ∃ place, v.store.writePlace (v.recordOf p) name rel.accessor
              (related.toValue v.recordOf) = .ok place)) := by
  rw [Action.newRegistry_apply] at hnew
  obtain ⟨hr, rfl⟩ := Prod.mk.inj hnew
  obtain rfl := Except.ok.inj hr
  obtain ⟨-, hfollows⟩ := h.follows (by simp [World.addRegistry])
    (by rw [World.registry_addRegistry]; exact Registry.follows_empty book)
  constructor
  · intro c t ht n
    have ht := Registry.type_eq_ok.mp ht
    exact ⟨(hfollows.mem_names_iff ht).symm, hfollows.type_isA_iff ht⟩
  · intro c o p hclass name rel f related hrel halike
    have hcheck := halike.check_iff hfollows (v.object o) p rel
    refine ⟨hcheck, fun hname hnone => ?_⟩
    rw [World.set_relation_eq_ok hname hnone hrel halike.isUnset_eq, hcheck]
    exact World.setRelation_eq_ok (hclass.schema_eq hfollows ▸ hrel)

/-- A store with works, and with books that are works and are about works. -/
def works : Store :=
  { schemas := .insert .empty "works" { classes := [
      { name := "Book", superclasses := ["Work"], relations := [{ name := "about", target := "Work" }] },
      { name := "Work" }] }
    databases := .insert .empty "library" { includes := ["works"] }
    loaded := ["library"] }

/-- The world in which a new registry has loaded the schemas of works and books. -/
def worksWorld : World := (refreshSchemas ⟨0⟩ (.addRegistry { store := works } {} [])).2

/-- What a schema says of works. -/
def aboutWorks (s : ClassSchema) : List String × Bool × Option (String × Bool) :=
  (s.superclasses, s.isA "Work", (s.relation? "about").map fun r => (r.target, r.multivalue))

theorem gathers_worksWorld :
    Gathers works.hierarchy ⟨0⟩ (.addRegistry { store := works } {} []) worksWorld :=
  .refreshSchemas .start (.refl _)

theorem loaded_works :
    (∃ s, (worksWorld.registry ⟨0⟩).schemas.get? "Work" = some s ∧ aboutWorks s = ([], true, none))
      ∧ ∃ s, (worksWorld.registry ⟨0⟩).schemas.get? "Book" = some s
        ∧ aboutWorks s = (["Work"], true, some ("Work", false)) :=
  ⟨Option.map_eq_some_iff.mp (by decide +kernel), Option.map_eq_some_iff.mp (by decide +kernel)⟩

theorem derivable_works : (worksWorld.registry ⟨0⟩).Derivable ["Book", "Work"] "Book" := by
  obtain ⟨⟨work, hwork, hnone⟩, book, hbook, hone⟩ := loaded_works
  have hnone : work.superclasses = [] := (Prod.mk.inj hnone).1
  have hone : book.superclasses = ["Work"] := (Prod.mk.inj hone).1
  refine .intro (by simp) hbook fun b hb _ => ?_
  obtain rfl : b = "Work" := by simpa [hone] using hb
  exact .intro (by simp) hwork (by simp [hnone])

theorem derive_works :
    ∃ t, ((derive ⟨0⟩ ["Book", "Work"] worksWorld).2.registry ⟨0⟩).type "Book" = .ok t
      ∧ ((derive ⟨0⟩ ["Book", "Work"] worksWorld).2.registry ⟨0⟩).schema "Book" = .ok t.schema
      ∧ aboutWorks t.schema = (["Work"], true, some ("Work", false)) := by
  obtain ⟨hr, hfollows⟩ := gathers_worksWorld.follows (by decide +kernel) (Registry.follows_empty _)
  have hnames : (worksWorld.registry ⟨0⟩).NamesSchemas := by
    intro c s hs
    obtain ⟨h, -, hloaded⟩ := hfollows.schemas c s hs
    exact hloaded.name_eq
  obtain ⟨-, book, hbook, habout⟩ := loaded_works
  obtain ⟨result, reg, hrun, htyped, -⟩ := Registry.derive_leastFixpoint ⟨0⟩ ["Book", "Work"] hnames
    (by decide +kernel)
  obtain ⟨t, ht⟩ := OrderedMap.contains_iff_exists_get?.mp
    ((htyped "Book").mpr (Or.inr derivable_works))
  have hreg : (derive ⟨0⟩ ["Book", "Work"] worksWorld).2.registry ⟨0⟩ = reg := by
    rw [derive, Action.onRegistry_apply, World.registry_changeRegistry_self _ hr, hrun]
  have hkept := (derive_develops ⟨0⟩ hr ["Book", "Work"]).2.grows.schemas "Book" book hbook
  obtain ⟨-, hafter⟩ := (gathers_worksWorld.derive ["Book", "Work"]).follows (by decide +kernel)
    (Registry.follows_empty _)
  rw [hreg] at hkept hafter ⊢
  obtain ⟨-, hschema, -⟩ := hafter.types "Book" t ht
  obtain rfl := Option.some.inj (hkept.symm.trans hschema)
  exact ⟨t, Registry.type_eq_ok.mpr ht, Registry.schema_eq_ok.mpr hkept, habout⟩

/-- A book may be about itself, as books are works. -/
theorem membership_agrees_works :
    ∃ w v t rel, Action.newRegistry { store := works } = (.ok ⟨0⟩, w)
      ∧ Gathers works.hierarchy ⟨0⟩ w v ∧ (v.registry ⟨0⟩).type "Book" = .ok t
      ∧ t.isA "Work" = true ∧ "Work" ∈ t.names
      ∧ v.OfClass ⟨0⟩ "Book" ⟨0⟩ ⟨0⟩ ∧ (v.object ⟨0⟩).schema.relation? "about" = some rel
      ∧ v.checkTargets (v.object ⟨0⟩) rel (.object ⟨0⟩) = .ok (.object ⟨0⟩) := by
  obtain ⟨t, htype, hschema, habout⟩ := derive_works
  let w := (derive ⟨0⟩ ["Book", "Work"] worksWorld).2
  let v : World := { w with
    objects := .push .empty { type := t, id := "1" }
    proxies := .push .empty { record := ⟨"Book", "1"⟩, schema := t.schema, registry := ⟨0⟩ } }
  have hnew : Action.newRegistry { store := works }
      = (.ok ⟨0⟩, .addRegistry { store := works } {} []) := Action.newRegistry_apply _
  have hgathers : Gathers works.hierarchy ⟨0⟩ (.addRegistry { store := works } {} []) v :=
    (gathers_worksWorld.derive ["Book", "Work"]).around (Nat.le_refl _) rfl rfl
  have hclass : v.OfClass ⟨0⟩ "Book" ⟨0⟩ ⟨0⟩ := ⟨htype, hschema⟩
  obtain ⟨rel, hrel, htarget⟩ := Option.map_eq_some_iff.mp (congrArg (·.2.2) habout)
  have hwork : t.schema.isA "Work" = true := congrArg (·.2.1) habout
  obtain ⟨htypes, hchecks⟩ := membership_agrees hnew hgathers
  obtain ⟨hnames, hloaded⟩ := htypes "Book" t htype "Work"
  obtain ⟨hcheck, -⟩ := hchecks "Book" ⟨0⟩ ⟨0⟩ hclass "about" rel (.object ⟨0⟩) (.one (some ⟨0⟩)) hrel
    (.one hclass)
  have hrelated : ProxyId.checkRelated v ⟨0⟩ rel (.one (some ⟨0⟩)) = .ok () := by
    obtain ⟨htarget, hsingle⟩ := Prod.mk.inj htarget
    refine World.checkRelated_eq_ok.mpr ⟨hsingle.symm, fun q hq => ?_⟩
    obtain rfl : q = ⟨0⟩ := by simpa [Related.targets] using hq
    rw [htarget]
    exact hwork
  have hisA : t.isA "Work" = true := hloaded.mpr hwork
  exact ⟨_, v, t, rel, hnew, hgathers, htype, hisA, hnames.mp hisA, hclass, hrel, hcheck.mpr hrelated⟩

end RegistryId

end RecordGraph
