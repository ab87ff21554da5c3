import RecordGraph.Proofs.Object.Traversal
import RecordGraph.Proofs.Session.Confining
import RecordGraph.Proofs.Session.Rereading
import RecordGraph.Proofs.Store.Finding

/-!
Updating one object alone.  Only the fields of its own record may change, whether the update succeeds
or fails.  Where fields that cannot be written are skipped, it fails for nothing but the target of a
relation: one without a record, or with a record of a class that the session does not know.
-/

namespace RecordGraph

open RecordGraph.Computation Workspace

/-- Nothing of a store changes but the fields of one record in one database: no record is made, removed
or renamed. -/
structure Store.OnlyWrites (s t : Store) (place : String) (r : RecordRef) : Prop where
  shape : s.SameShape t
  renames : t.renames = s.renames
  records : ∀ name x, t.holdsIn name x = s.holdsIn name x
  fields : ∀ name x, ¬ (name = place ∧ x = r) → t.fieldsOf name x = s.fieldsOf name x

namespace Session

variable {s t u : Workspace} {o x : ObjectId} {p : ProxyId} {targets : Targets} {name : String}
  {policy : Policy}

/-! ### Objects whose records are in their places -/

/-- An object of a class that the session knows as the object does, which waits for no rename and has
no field with the name of its id.  Its record is visible under exactly its class and id, with no other
one of a derived class. -/
structure InPlace (s : Workspace) (o : ObjectId) : Prop where
  schema : s.registry.schemas.get? (s.world.object o).className = some (s.world.object o).schema
  named : (s.world.object o).schema.WellNamed
  oldId : (s.world.object o).oldId = none
  id : (s.world.object o).fields.get? "id" = none
  declared : (s.world.object o).className ∈ s.world.store.classes
  visible : s.world.store.Visible (s.world.object o).record
  only : ∀ c ∈ s.world.store.classes,
    s.world.store.hierarchy.isA c (s.world.object o).className = true →
      s.world.store.Visible ⟨c, (s.world.object o).id⟩ → c = (s.world.object o).className

/-- An object alone was prepared with the proxy of its own record. -/
structure Alone (s : Workspace) (o : ObjectId) (p : ProxyId) (u : Workspace) : Prop where
  looks : s.Looks u
  bound : p.index < u.world.proxies.size
  record : u.world.recordOf p = (s.world.object o).record

/-- The proxies of an object that is updated alone. -/
abbrev aloneTargets (s : Workspace) (o : ObjectId) (p : ProxyId) : Targets :=
  OrderedMap.empty.insert (s.world.nameOf o) ⟨p, false⟩

theorem get?_aloneTargets : (aloneTargets s o p).get? name
    = if name = s.world.nameOf o then some ⟨p, false⟩ else none := by
  rw [OrderedMap.get?_insert]
  rfl

theorem eq_of_get?_aloneTargets {target : Target}
    (hget : (aloneTargets s o p).get? name = some target) : target = ⟨p, false⟩ := by
  rw [get?_aloneTargets] at hget
  split at hget
  · exact (Option.some.inj hget).symm
  · cases hget

theorem InPlace.foundIn (h : InPlace s o) :
    ∃ place, s.world.store.FoundIn (s.world.object o).record place := by
  obtain ⟨place, hplace⟩ := Option.isSome_iff_exists.mp h.visible
  exact ⟨place, Store.foundIn_of_only h.declared hplace h.only⟩

/-- Preparing finds the record that the object has. -/
theorem InPlace.prepare (h : InPlace s o) :
    ∃ p u, prepare .empty o s = (.ok (aloneTargets s o p), u) ∧ Alone s o p u := by
  obtain ⟨place, hfound⟩ := h.foundIn
  have hrename : applyRename o s = (.ok (), s) := by
    rw [applyRename, bind_of_ok (get_apply s), h.oldId]
    rfl
  obtain ⟨p, u, hrecord⟩ : ∃ p u,
      Session.record (s.world.object o).className (s.world.object o).id s = (.ok p, u) := by
    refine record_ok_iff.mpr ⟨_, Store.getRecord_eq_ok.mpr hfound.find, ?_⟩
    rw [← OrderedMap.get?_isSome]
    exact congrArg Option.isSome h.schema
  obtain ⟨hlooks, -, hfind, hbound⟩ := looks_record hrecord
  refine ⟨p, u, ?_, hlooks, hbound, Option.some.inj (hfind.symm.trans hfound.find)⟩
  have htest : s.world.store.testRecord (s.world.object o).className (s.world.object o).id = true :=
    congrArg Option.isSome hfound.find
  have htarget : targetFor o s = (.ok ⟨p, false⟩, u) := by
    rw [targetFor, bind_of_ok (get_apply s), if_pos htest]
    exact bind_of_ok hrecord
  rw [Session.prepare, bind_of_ok hrename, bind_of_ok (get_apply s)]
  exact bind_of_ok htarget

/-- Updating an object alone, once it is prepared. -/
def writeAlone (policy : Policy) (targets : Targets) (o : ObjectId) : SessionM ProxyId := do
  writeObject { policy, recursive := false, createOnly := false } targets o
  rootProxy targets o

theorem updateWith_alone_apply (hprepare : prepare .empty o s = (.ok targets, u)) :
    updateWith policy o false s = writeAlone policy targets o u := by
  have hfold : [o].foldlM prepare .empty s = (.ok targets, u) := bind_of_ok hprepare
  have hloop : ∀ mode, [o].forM (writeObject mode targets) u = writeObject mode targets o u := by
    intro mode
    change (writeObject mode targets o >>= fun _ => pure PUnit.unit) u = _
    rw [bind_apply]
    rcases writeObject mode targets o u with ⟨e | ⟨⟩, t⟩ <;> rfl
  rw [updateWith, persist, bind_of_ok (get_apply s)]
  change ([o].foldlM prepare .empty >>= fun targets => do
    [o].forM (writeObject { policy, recursive := false, createOnly := false } targets)
    rootProxy targets o) s = _
  rw [bind_of_ok hfold, writeAlone, bind_apply, bind_apply, hloop]

/-! ### What stays as it is -/

/-- Writing an object alone writes to its own record only. -/
theorem onlyWrites_writeAlone {place : String} (h : Alone s o p u)
    (hplace : s.world.store.location (s.world.object o).record = some place) :
    s.world.store.OnlyWrites (writeAlone policy (aloneTargets s o p) o u).2.world.store place
      (s.world.object o).record := by
  have hwithin : WritesWithin u { policy, recursive := false, createOnly := false }
      (aloneTargets s o p) (fun name r => name = place ∧ r = (s.world.object o).record)
      (u.world.nameOf o) := by
    intro target hget _
    obtain rfl := eq_of_get?_aloneTargets hget
    refine ⟨h.bound, fun name hname => ?_⟩
    rw [h.record, h.looks.world.store, hplace] at hname
    exact ⟨(Option.some.inj hname).symm, h.record⟩
  have hkept := ((confined_writeObject hwithin).bind fun _ =>
    (reads_rootProxy (aloneTargets s o p) o).preserves) u (.refl u _)
  have hshape := hkept.still.shape
  have hfields := hkept.fields
  rw [h.looks.world.store] at hshape hfields
  exact ⟨hshape, hshape.renames, fun _ _ => hshape.holdsIn, hfields⟩

/-! ### What can fail -/

/-- The target of a relation can be written as a record: an object of the same name is written with it,
or there is a record of it, of a class that the session has a schema for. -/
def Writable (s : Workspace) (targets : Targets) (x : ObjectId) : Prop :=
  targets.contains (s.world.nameOf x) = true
    ∨ ∃ r, s.world.store.getRecord (s.world.object x).className (s.world.object x).id = .ok r
      ∧ s.registry.schemas.contains r.className = true

/-- What one workspace becomes by writing. -/
abbrev Becomes (s t : Workspace) : Prop := Writes (fun _ _ => True) (fun _ _ => True) s t

theorem writable_iff (h : Becomes s t) : Writable t targets x ↔ Writable s targets x := by
  unfold Writable Object.className
  rw [h.nameOf, h.shape.getRecord, h.sessionRegistry, (h.alike x).type, (h.alike x).id]

/-- A field of the class of an object is read. -/
theorem succeedsIff_get (ht : Becomes s t) (hname : (s.world.object o).schema.hasField name = true) :
    SucceedsIff (Becomes s) True (act (o.get name)) t := by
  obtain ⟨f, hf⟩ := Object.exists_reads (ht.schemaOf o ▸ hname)
  obtain ⟨u, hrun⟩ := get_ok hf
  exact .of_ok hrun (ht.trans ((get_run hrun).2.2.2 _ _))

/-- A write that may be skipped does not fail. -/
theorem tryCatch_skip_ok (o : ObjectId) (name : String) (m : SessionM Unit) (s : Workspace) :
    ∃ t, (tryCatch m (skipOrFail .permissive o name) : SessionM Unit) s = (.ok (), t) := by
  rw [tryCatch_apply]
  rcases m s with ⟨e | ⟨⟩, t⟩
  · exact ⟨_, rfl⟩
  · exact ⟨t, rfl⟩

theorem succeedsIff_writeAttribute (ht : Becomes s t)
    (hname : (s.world.object o).schema.hasField name = true) :
    SucceedsIff (Becomes s) True (writeAttribute .permissive o p name) t := by
  refine ((succeedsIff_get ht hname).bind (Q := True) fun f u _ hu => ?_).congr (and_self_iff)
  cases f with
  | value v =>
    obtain ⟨w, hrun⟩ := tryCatch_skip_ok o name (do let _ ← act (p.setAttribute name v)) u
    exact .of_ok hrun (hu.trans (trySetAttribute_run trivial trivial hrun).1)
  | _ => exact .of_ok rfl hu

theorem succeedsIff_relatedProxy (ht : Becomes s t) (hexist : targets.Exist s) :
    SucceedsIff (Becomes s) (Writable s targets x) (relatedProxy targets x) t := by
  constructor
  · rw [← writable_iff ht, Writable, relatedProxy, bind_of_ok (get_apply t)]
    cases htarget : targets.get? (t.world.nameOf x) with
    | some target =>
      have hknown : targets.contains (t.world.nameOf x) = true := by
        rw [← OrderedMap.get?_isSome, htarget]
        rfl
      exact ⟨fun _ => Or.inl hknown, fun _ => ⟨_, t, rfl⟩⟩
    | none =>
      have hunknown : ¬ targets.contains (t.world.nameOf x) = true := by
        rw [← OrderedMap.get?_isSome, htarget]
        exact Bool.false_ne_true
      rw [or_iff_right hunknown]
      exact record_ok_iff
  · intro q u hrun
    exact ht.trans ((relatedProxy_run (hexist.mono ht.proxies) hrun).1.writes _ _)

theorem succeedsIff_writeRelation {r : Relation} (ht : Becomes s t) (hexist : targets.Exist s)
    (hname : (s.world.object o).schema.hasField r.name = true) :
    SucceedsIff (Becomes s) (∀ x ∈ (s.world.object o).leadsTo r.name, Writable s targets x)
      (writeRelation .permissive targets o p r) t := by
  refine ((succeedsIff_get ht hname).bind
    (Q := ∀ x ∈ (s.world.object o).leadsTo r.name, Writable s targets x)
    fun f u hget hu => ?_).congr (by rw [true_and])
  -- What the relation leads to does not depend on what was written before.
  have hreads : (s.world.object o).reads r.name = .ok f := by
    rw [← (ht.alike o).reads]
    exact (get_run hget).1
  rw [Object.leadsTo_of_reads hreads]
  have hproxies : SucceedsIff (Becomes s) (∀ x ∈ f.targets, Writable s targets x)
      (f.targets.mapM (relatedProxy targets)) u :=
    .mapM hu fun x _ v hv => succeedsIff_relatedProxy hv hexist
  refine (hproxies.bind (Q := True) fun qs v _ hv => ?_).congr (by rw [and_true])
  obtain ⟨w, hrun⟩ := tryCatch_skip_ok o r.name
    (act (p.setRelation r.name (if r.multivalue then .many qs else .one qs.head?))) v
  exact .of_ok hrun (hv.trans (trySetRelation_run trivial trivial hrun).1)

/-- Writing the fields of an object, and skipping what cannot be written, fails for nothing but the
target of a relation. -/
theorem succeedsIff_writeFields (hnamed : (s.world.object o).schema.WellNamed)
    (hexist : targets.Exist s) :
    SucceedsIff (Becomes s)
      (∀ r ∈ (s.world.object o).schema.relations.values,
        ∀ x ∈ (s.world.object o).leadsTo r.name, Writable s targets x)
      (writeFields .permissive targets o p) s := by
  have hattributes : SucceedsIff (Becomes s)
      (∀ name ∈ (s.world.object o).schema.attributes.keys, True)
      ((s.world.object o).schema.attributes.keys.forM (writeAttribute .permissive o p)) s := by
    refine .forM (.refl _ _ s) fun name hname t ht => succeedsIff_writeAttribute ht ?_
    exact ClassSchema.hasField_iff.mpr (.inl (OrderedMap.mem_keys_iff.mp hname))
  have hrelations : ∀ t, Becomes s t → SucceedsIff (Becomes s)
      (∀ r ∈ (s.world.object o).schema.relations.values,
        ∀ x ∈ (s.world.object o).leadsTo r.name, Writable s targets x)
      ((s.world.object o).schema.relations.values.forM (writeRelation .permissive targets o p)) t := by
    intro t ht
    refine SucceedsIff.forM ht fun r hr u hu => succeedsIff_writeRelation hu hexist ?_
    exact ClassSchema.hasField_of_relation (hnamed.relation?_of_mem hr)
  have hwrite := hattributes.bind fun _ t _ ht => hrelations t ht
  exact (SucceedsIff.of_eq (bind_of_ok (get_apply s)) hwrite).congr (by simp)

/-- Updating an object alone, and skipping what cannot be written, fails for nothing but the target of
a relation. -/
theorem succeedsIff_writeAlone (h : Alone s o p u) (hnamed : (u.world.object o).schema.WellNamed) :
    SucceedsIff (Becomes u)
      (∀ r ∈ (u.world.object o).schema.relations.values,
        ∀ x ∈ (u.world.object o).leadsTo r.name, Writable u (aloneTargets s o p) x)
      (writeAlone .permissive (aloneTargets s o p) o) u := by
  have hexist : (aloneTargets s o p).Exist u := by
    intro name target hget
    obtain rfl := eq_of_get?_aloneTargets hget
    exact h.bound
  have hget : ∀ t, Becomes u t →
      (aloneTargets s o p).get? (t.world.nameOf o) = some ⟨p, false⟩ := fun t ht => by
    rw [get?_aloneTargets, ht.nameOf, h.looks.steady.nameOf, if_pos rfl]
  have hfinish : ∀ t, Becomes u t → SucceedsIff (Becomes u) True
      (do act o.clearTouched; modify fun s => s.cache o) t := by
    intro t ht
    have hcleared : Becomes t (act o.clearTouched t).2 :=
      writes_changeObject _ _ (f := fun object => { object with touched := [] })
        (Object.alike_of_eq rfl rfl rfl)
    exact .of_ok rfl (ht.trans (hcleared.trans (writes_cache _ _ _ o)))
  have hroot : ∀ t, Becomes u t →
      SucceedsIff (Becomes u) True (rootProxy (aloneTargets s o p) o) t := by
    intro t ht
    refine .of_ok (a := p) (t := t) ?_ ht
    rw [rootProxy, bind_of_ok (get_apply t), hget t ht]
    rfl
  have hobject : writeObject { policy := .permissive, recursive := false, createOnly := false }
      (aloneTargets s o p) o u = (writeFields .permissive (aloneTargets s o p) o p >>= fun _ => do
        act o.clearTouched
        modify fun s => s.cache o) u := by
    rw [writeObject, bind_of_ok (get_apply u), hget u (.refl _ _ u)]
    rfl
  have hwrite := (succeedsIff_writeFields (p := p) hnamed hexist).bind fun _ t _ ht => hfinish t ht
  exact ((SucceedsIff.of_eq hobject hwrite).bind fun _ t _ ht => hroot t ht).congr (by simp)

/-- The targets of the relations of an object, relation by relation. -/
theorem InPlace.forall_related_iff (h : InPlace s o) {P : ObjectId → Prop} :
    (∀ r ∈ (s.world.object o).schema.relations.values,
      ∀ x ∈ (s.world.object o).leadsTo r.name, P x) ↔ ∀ x ∈ s.world.related o, P x := by
  constructor
  · intro hall x hx
    obtain ⟨name, hname, hx⟩ := (Object.mem_related_iff h.id).mp hx
    obtain ⟨r, hr⟩ := OrderedMap.mem_keys_iff.mp hname
    rw [← h.named.relations name r hr] at hx
    exact hall r (OrderedMap.mem_values_of_get? hr) x hx
  · intro hall r hr x hx
    refine hall x ((Object.mem_related_iff h.id).mpr ⟨r.name, ?_, hx⟩)
    exact OrderedMap.mem_keys_iff.mpr ⟨r, h.named.relation?_of_mem hr⟩

/-- The update of an object alone, whose record is in its place.  Whether it succeeds or fails, under
either policy, it changes nothing of the store but fields of that record.  If fields may be skipped it
succeeds exactly when each target of a relation is the object itself, by its full name, or is found as
a record of a class that the session has a schema for. -/
theorem updateWith_alone (h : InPlace s o) :
    (∃ place, s.world.store.location (s.world.object o).record = some place
      ∧ ∀ policy, s.world.store.OnlyWrites (updateWith policy o false s).2.world.store place
        (s.world.object o).record)
    ∧ ((∃ p t, updateWith .permissive o false s = (.ok p, t)) ↔
      ∀ x ∈ s.world.related o, s.world.nameOf x = s.world.nameOf o
        ∨ ∃ r, s.world.store.getRecord (s.world.object x).className (s.world.object x).id = .ok r
          ∧ s.registry.schemas.contains r.className = true) := by
  obtain ⟨place, hfound⟩ := h.foundIn
  obtain ⟨p, u, hprepare, halone⟩ := h.prepare
  refine ⟨⟨place, hfound.location, fun policy => ?_⟩, ?_⟩
  · rw [updateWith_alone_apply hprepare]
    exact onlyWrites_writeAlone halone hfound.location
  · rw [updateWith_alone_apply hprepare]
    have hnamed : (u.world.object o).schema.WellNamed := halone.looks.object o ▸ h.named
    rw [(succeedsIff_writeAlone halone hnamed).ok_iff, halone.looks.object o, h.forall_related_iff]
    refine forall₂_congr fun x _ => ?_
    rw [writable_iff (halone.looks.writes _ _), Writable, ← OrderedMap.get?_isSome,
      get?_aloneTargets]
    by_cases hname : s.world.nameOf x = s.world.nameOf o <;> simp [hname]

/-- The object of a record, led to one that has no record. -/
def labelledDangling : Workspace :=
  (setAll ⟨0⟩ [("peer", .object ⟨1⟩)] (newObject "Person" "c" labelledHydrated).2).2

theorem inPlace_labelledDangling : InPlace labelledDangling ⟨0⟩ where
  schema := rfl
  named := by decide +kernel
  oldId := by decide +kernel
  id := Option.isNone_iff_eq_none.mp (by decide +kernel)
  declared := by decide +kernel
  visible := by decide +kernel
  only := by decide +kernel

/-- The update of the object fails for the target, and leaves all other records alone. -/
theorem updateWith_alone_dangling :
    (∀ policy, labelledDangling.world.store.OnlyWrites
        (updateWith policy ⟨0⟩ false labelledDangling).2.world.store "near" ⟨"Person", "a"⟩)
      ∧ ¬ ∃ p t, updateWith .permissive ⟨0⟩ false labelledDangling = (.ok p, t) := by
  obtain ⟨⟨place, hplace, honly⟩, hok⟩ := updateWith_alone inPlace_labelledDangling
  have hrecord : (labelledDangling.world.object ⟨0⟩).record = ⟨"Person", "a"⟩ := by decide +kernel
  have hnear : labelledDangling.world.store.location ⟨"Person", "a"⟩ = some "near" := by
    decide +kernel
  rw [hrecord] at hplace honly
  obtain rfl : place = "near" := Option.some.inj (hplace.symm.trans hnear)
  refine ⟨honly, fun hrun => ?_⟩
  have htarget : ⟨1⟩ ∈ labelledDangling.world.related ⟨0⟩ := by decide +kernel
  rcases hok.mp hrun ⟨1⟩ htarget with hsame | ⟨r, hfound, -⟩
  · exact absurd hsame (by decide +kernel)
  · have hmissing : labelledDangling.world.store.find
        (labelledDangling.world.object ⟨1⟩).className (labelledDangling.world.object ⟨1⟩).id = none := by
      decide +kernel
    rw [Store.getRecord_eq_ok.mp hfound] at hmissing
    cases hmissing

end Session

end RecordGraph
