import RecordGraph.Proofs.Session.Populating
import RecordGraph.Proofs.Session.Writing
import RecordGraph.Proofs.Store.Visibility

/-!
Getting objects that cannot be loaded.  The object of a record is cached before its fields are read,
and stays cached when the loading fails: the cache is left as it was only where the call fails before
it makes an object.
-/

namespace RecordGraph

open RecordGraph.Computation Workspace

namespace Session

variable {s t u : Workspace} {className id : String} {e : Error} {r : RecordRef}

/-- The session can make objects for a record: it knows the schema and the type of its class. -/
structure CanMake (s : Workspace) (r : RecordRef) (type : ClassType) : Prop where
  schema : s.registry.schemas.contains r.className = true
  type : s.registry.types.get? r.className = some type

/-- How getting an object by its class and id fails: before an object is made, or while the object of
the record is loaded. -/
inductive GetFails (s t : Workspace) (className id : String) : Prop
  | early (session : t.session = s.session)
      (unmade : ∀ r, s.world.store.find className id = some r → ∀ type, ¬ CanMake s r type)
  | loading {u : Workspace} {r : RecordRef} {type : ClassType}
      (found : s.world.store.find className id = some r) (makes : CanMake s r type)
      (before : s.Maintains u) (rest : (u.make type r.id).Populates t)

theorem proxyFor_error (hrun : proxyFor r s = (.error e, t)) :
    t = s ∧ s.registry.schemas.contains r.className = false := by
  cases hschema : s.registry.schema r.className with
  | ok schema =>
    rw [proxyFor_of_ok hschema] at hrun
    simp at hrun
  | error e' =>
    rw [proxyFor, bind_of_ok (get_apply s), act_of_run (Action.newProxy_of_error hschema)] at hrun
    refine ⟨(Prod.mk.inj hrun).2.symm, ?_⟩
    rw [← OrderedMap.get?_isSome]
    cases hknown : s.registry.schemas.get? r.className with
    | none => rfl
    | some schema => simp [Registry.schema_eq_ok.mpr hknown] at hschema

/-- There is no proxy for a record that was not found, or for a class without a schema. -/
theorem record_error (hrun : record className id s = (.error e, t)) :
    t = s ∧ ∀ r, s.world.store.find className id = some r → ∀ type, ¬ CanMake s r type := by
  rcases bind_eq_error.mp hrun with hask | ⟨found, u, hask, hproxy⟩
  · obtain ⟨hmissing, rfl⟩ := askStore_run hask
    refine ⟨rfl, fun r hfind => ?_⟩
    simp [Store.getRecord_eq_ok.mpr hfind] at hmissing
  · obtain ⟨hfound, rfl⟩ := askStore_run hask
    obtain ⟨rfl, hunknown⟩ := proxyFor_error hproxy
    refine ⟨rfl, fun r hfind type hmakes => ?_⟩
    rw [Store.getRecord_eq_ok.mp hfound] at hfind
    obtain rfl := Option.some.inj hfind
    simp [hmakes.schema] at hunknown

/-- The record behind a proxy is the one that was found, of a class with a schema. -/
theorem record_ok {p : ProxyId} (hrun : record className id s = (.ok p, t)) :
    s.world.store.find className id = some (t.world.recordOf p)
      ∧ s.registry.schemas.contains (t.world.recordOf p).className = true := by
  obtain ⟨-, ⟨hschema, -⟩, hfind, -⟩ := looks_record hrun
  refine ⟨hfind, ?_⟩
  rw [← OrderedMap.get?_isSome, Registry.schema_eq_ok.mp hschema]
  rfl

theorem objectOf_error {p : ProxyId} (hrun : objectOf p s = (.error e, t)) :
    t = s ∧ s.registry.types.get? (s.world.recordOf p).className = none := by
  rw [objectOf, bind_of_ok (get_apply s)] at hrun
  cases hcached : s.cached? (s.world.recordOf p).className (s.world.recordOf p).id with
  | some o => simp [hcached] at hrun
  | none =>
    simp only [hcached] at hrun
    rcases bind_eq_error.mp hrun with hfail | ⟨o, u, -, hpure⟩
    · cases htype : s.registry.types.get? (s.world.recordOf p).className with
      | some type =>
        rw [instantiate_of_type htype] at hfail
        simp at hfail
      | none =>
        obtain ⟨e', hnone⟩ := instantiate_of_none htype
        rw [hnone] at hfail
        exact ⟨(Prod.mk.inj hfail).2.symm, rfl⟩
    · simp at hpure

/-- The new object of a record is of the type of its class. -/
theorem objectOf_new {p : ProxyId} {o : ObjectId} (hrun : objectOf p s = (.ok (o, true), t)) :
    ∃ type, s.registry.types.get? (s.world.recordOf p).className = some type
      ∧ t = s.make type (s.world.recordOf p).id := by
  rw [objectOf, bind_of_ok (get_apply s)] at hrun
  cases hcached : s.cached? (s.world.recordOf p).className (s.world.recordOf p).id with
  | some x => simp [hcached] at hrun
  | none =>
    simp only [hcached] at hrun
    obtain ⟨x, u, hmake, hpure⟩ := bind_eq_ok.mp hrun
    obtain ⟨-, rfl⟩ := Prod.mk.inj hpure
    obtain ⟨type, htype, -, rfl⟩ := instantiate_run hmake
    exact ⟨type, htype, rfl⟩

/-- Hydrating the record behind a proxy fails because it has no type, or while its object is loaded. -/
theorem hydrate_error {p : ProxyId} (hrun : hydrate p u = (.error e, t)) :
    (t = u ∧ u.registry.types.get? (u.world.recordOf p).className = none)
      ∨ ∃ type, u.registry.types.get? (u.world.recordOf p).className = some type
        ∧ (u.make type (u.world.recordOf p).id).Populates t := by
  rcases bind_eq_error.mp hrun with hfind | ⟨⟨o, new⟩, v, hfind, hload⟩
  · exact Or.inl (objectOf_error hfind)
  · cases new with
    | false => simp at hload
    | true =>
      obtain ⟨type, htype, rfl⟩ := objectOf_new hfind
      simp only [if_true] at hload
      rw [bind_of_ok (get_apply _)] at hload
      rcases bind_eq_error.mp hload with hpending | ⟨_, v, -, hpure⟩
      · exact Or.inr ⟨type, htype, (preserves_loadPending _ _).run .refl hpending⟩
      · simp at hpure

theorem getObject_error (hrun : getObject className id s = (.error e, t)) :
    GetFails s t className id := by
  rw [getObject, bind_of_ok (get_apply s)] at hrun
  cases hcached : s.cached? className id with
  | some o => simp [hcached] at hrun
  | none =>
    simp only [hcached] at hrun
    rcases bind_eq_error.mp hrun with hrecord | ⟨p, u, hrecord, hhydrate⟩
    · obtain ⟨rfl, hunmade⟩ := record_error hrecord
      exact .early rfl hunmade
    · obtain ⟨hfind, hschema⟩ := record_ok hrecord
      have hbefore := (preserves_record className id).run (.refl s) hrecord
      rcases hydrate_error hhydrate with ⟨rfl, htype⟩ | ⟨type, htype, hrest⟩
      · refine .early hbefore.session fun r hr type hmakes => ?_
        rw [hfind] at hr
        obtain rfl := Option.some.inj hr
        rw [hbefore.registry, hmakes.type] at htype
        simp at htype
      · rw [hbefore.registry] at htype
        exact .loading hfind ⟨hschema, htype⟩ hbefore hrest

/-- A call that fails leaves the cache as it was exactly when the session could not make an object for
the record.  Otherwise the object that was made answers the next call for its class and id, and
whatever else came to be cached is new as well. -/
theorem getObject_error_cached_iff (hs : s.CachesObjects)
    (hrun : getObject className id s = (.error e, t)) :
    ((∀ c i, t.cached? c i = s.cached? c i)
        ↔ ∀ r, s.world.store.find className id = some r → ∀ type, ¬ CanMake s r type)
      ∧ (∀ r type, s.world.store.find className id = some r → CanMake s r type →
        ∃ o, s.world.objects.size ≤ o.index ∧ getObject type.name r.id t = (.ok o, t))
      ∧ ∀ c i o, t.cached? c i = some o →
        s.cached? c i = some o ∨ s.world.objects.size ≤ o.index := by
  cases getObject_error hrun with
  | early hsession hunmade =>
    have hcached : t.cached? = s.cached? := by
      unfold Workspace.cached?
      rw [hsession]
    refine ⟨⟨fun _ => hunmade, fun _ c i => by rw [hcached]⟩,
      fun r type hfind hmakes => absurd hmakes (hunmade r hfind type),
      fun c i o ho => Or.inl (hcached ▸ ho)⟩
  | @loading u r type hfind hmakes hbefore hrest =>
    -- the object made for the record may give way to one of a derived class, which is newer still
    obtain ⟨o, ho, hnew⟩ : ∃ o, t.cached? type.name r.id = some o ∧ s.world.objects.size ≤ o.index := by
      have hmade : (u.make type r.id).cached? type.name r.id = some ⟨u.world.objects.size⟩ := by
        rw [cached?_make]
        exact if_pos ⟨ClassType.name_mem_names type, rfl⟩
      obtain ⟨o, ho⟩ := Option.isSome_iff_exists.mp (hrest.cached?_isSome (by rw [hmade]; rfl))
      refine ⟨o, ho, hbefore.world.objects ▸ ?_⟩
      rcases hrest.cached?_eq_some ho with hold | hlater
      · rw [hmade] at hold
        exact Nat.le_of_eq (congrArg ObjectId.index (Option.some.inj hold))
      · exact Nat.le_trans (by rw [size_make]; exact Nat.le_succ _) hlater
    refine ⟨⟨fun hkept => ?_, fun hunmade => absurd hmakes (hunmade r hfind type)⟩, ?_, ?_⟩
    · rw [hkept] at ho
      exact absurd (hs _ _ o ho) (Nat.not_lt_of_le hnew)
    · intro r' type' hfind' hmakes'
      rw [hfind] at hfind'
      cases hfind'
      have htype := hmakes.type
      rw [hmakes'.type] at htype
      cases htype
      refine ⟨o, hnew, ?_⟩
      rw [getObject, bind_of_ok (get_apply t), ho]
      rfl
    · intro c i o ho
      rcases hrest.cached?_eq_some ho with hold | hlater
      · rcases cached?_make_eq_some hold with ⟨rfl, -, -⟩ | hold
        · exact Or.inr (Nat.le_of_eq hbefore.world.objects.symm)
        · exact Or.inl (hbefore.cached? ▸ hold)
      · rw [size_make, hbefore.world.objects] at hlater
        exact Or.inr (Nat.le_of_succ_le hlater)

/-- A book whose author is of a class that was visible when the session was opened, and is no longer. -/
def delisted : Store :=
  { schemas := .ofList [
      ("books", { classes := [{
        name := "Book", relations := [{ name := "author", target := "Author" }] }] }),
      ("people", { classes := [{
        name := "Author", attributes := [{ name := "note", type := "string" }] }] })]
    databases := .insert .empty "library" {
      includes := ["books"]
      records := .ofList [
        (⟨"Book", "a"⟩, .ofList [("author", .record ⟨"Author", "b"⟩)]),
        (⟨"Author", "b"⟩, .ofList [("note", .text "x")])] }
    loaded := ["library"] }

def bookSchema : ClassSchema :=
  { name := "Book"
    relations := .insert .empty "author" {
      name := "author", target := "Author", multivalue := false, notNull := false
      aggregation := false, description := "" } }

def authorSchema : ClassSchema :=
  { name := "Author"
    attributes := .insert .empty "note" {
      name := "note", type := .text .string, multivalue := false, notNull := false
      rangeSource := none, initialSource := none, description := ""
      binding := some { range := .unbounded } } }

def delistedSession : Workspace :=
  { session := { registry := ⟨0⟩ }
    world := { store := delisted, registries := Arena.empty.push {
      schemas := .ofList [("Book", bookSchema), ("Author", authorSchema)]
      types := .ofList [
        ("Book", { schema := bookSchema, bases := [], home := ⟨0⟩ }),
        ("Author", { schema := authorSchema, bases := [], home := ⟨0⟩ })]
      known := ["Book", "Author"] } } }

def delistedFailed : Workspace := (getObject "Book" "a" delistedSession).2

theorem getObject_delistedSession :
    ∃ e, getObject "Book" "a" delistedSession = (.error e, delistedFailed) := by
  rcases hrun : getObject "Book" "a" delistedSession with ⟨e | o, t⟩
  · exact ⟨e, by rw [delistedFailed, hrun]⟩
  · have hfails : (getObject "Book" "a" delistedSession).1.isOk = false := by decide +kernel
    simp [hrun, Except.isOk, Except.toBool] at hfails

theorem cachesObjects_delistedSession : delistedSession.CachesObjects := by
  intro c i o ho
  simp [Workspace.cached?, delistedSession, SessionCache.get?, SessionCache.index] at ho

/-- The book cannot be got the first time, since its author cannot be loaded, and is got the second
time; so is the author, whose attribute was never read. -/
theorem getObject_error_cached_iff_delisted :
    (∃ e, getObject "Book" "a" delistedSession = (.error e, delistedFailed))
      ∧ (∃ o, getObject "Book" "a" delistedFailed = (.ok o, delistedFailed))
      ∧ getObject "Author" "b" delistedFailed = (.ok ⟨1⟩, delistedFailed)
      ∧ ((delistedFailed.world.object ⟨1⟩).shown "note").isUnset = true := by
  obtain ⟨e, hrun⟩ := getObject_delistedSession
  obtain ⟨-, hmade, -⟩ := getObject_error_cached_iff cachesObjects_delistedSession hrun
  obtain ⟨o, -, hagain⟩ := hmade ⟨"Book", "a"⟩ { schema := bookSchema, bases := [], home := ⟨0⟩ }
    (by decide +kernel) ⟨by decide +kernel, rfl⟩
  have hauthor : delistedFailed.cached? "Author" "b" = some ⟨1⟩ := by decide +kernel
  refine ⟨⟨e, hrun⟩, ⟨o, hagain⟩, ?_, by decide +kernel⟩
  rw [getObject, bind_of_ok (get_apply _), hauthor]
  rfl

/-- A call that fails leaves objects in the cache. -/
theorem not_cached_kept_of_error :
    ¬ ∀ (s t : Workspace) (className id : String) (e : Error), s.CachesObjects →
      getObject className id s = (.error e, t) → ∀ c i, t.cached? c i = s.cached? c i := by
  intro hclaim
  obtain ⟨e, hrun⟩ := getObject_delistedSession
  have hkept := hclaim _ _ _ _ _ cachesObjects_delistedSession hrun "Author" "b"
  have hmade : (delistedFailed.cached? "Author" "b").isSome = true := by decide +kernel
  rw [hkept] at hmade
  exact absurd hmade (by decide +kernel)

end Session

end RecordGraph
