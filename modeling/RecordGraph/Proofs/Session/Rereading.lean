import RecordGraph.Proofs.Schema.Coercion
import RecordGraph.Proofs.Session.Persisting

/-!
Reading back what an update stored.  A value that an object shows is stored coerced, so that it reads
back where coercing leaves it as it is.  An attribute that shows nothing is not written: whatever is
stored for it stays.
-/

namespace RecordGraph

open RecordGraph.Computation Workspace

namespace Session

variable {s t : Workspace} {o : ObjectId} {p : ProxyId} {r : RecordRef} {name : String} {v c : Value}

/-- What reading an attribute of a record through a new proxy gives. -/
def readAttribute (s : Workspace) (r : RecordRef) (name : String) : Except Error Value :=
  ((do (← Action.newProxy s.session.registry r).getAttribute name : Action Value) s.world).1

/-- A value coerced for an attribute of a record, as the session knows the class. -/
def coerceFor (s : Workspace) (r : RecordRef) (name : String) (v : Value) : Except Error Value := do
  let schema ← s.registry.schema r.className
  match schema.attribute? name with
  | some a => a.coerce r.fullName (s.world.isKnown s.session.registry) v
  | none => .error (.unknownField schema.name name)

/-- Writing an attribute makes its record tell what the object reads as: coercing leaves a value as it
is, and where the object shows nothing the record has nothing already. -/
def Restores (s : Workspace) (r : RecordRef) (name : String) : Field → Prop
  | .value v => coerceFor s r name v = .ok v
  | _ => readAttribute s r name = .ok .null

theorem readAttribute_eq_ok : readAttribute s r name = .ok v ↔
    ∃ schema a, s.registry.schema r.className = .ok schema ∧ schema.attribute? name = some a
      ∧ s.world.store.read r name a.getter = .ok v := by
  unfold readAttribute
  cases hschema : s.registry.schema r.className with
  | error e =>
    rw [bind_of_error (Action.newProxy_of_error hschema)]
    simp
  | ok schema =>
    have hnew := Action.newProxy_of_ok hschema
    rw [bind_of_ok hnew]
    have hproxy : (s.world.pushProxy { record := r, schema, registry := s.session.registry }).proxy
        ⟨s.world.proxies.size⟩ = { record := r, schema, registry := s.session.registry } := by
      rw [World.proxy_pushProxy, if_pos rfl]
    cases ha : schema.attribute? name with
    | none =>
      rw [ProxyId.getAttribute, bind_apply, ProxyId.attributeSchema, Action.ask_apply, hproxy]
      simp [ha]
    | some a =>
      rw [ProxyId.getAttribute_apply (by rw [hproxy]; exact ha)]
      simp only [World.recordOf, hproxy, Except.ok.injEq]
      constructor
      · exact fun h => ⟨schema, a, rfl, ha, h⟩
      · rintro ⟨_, a', rfl, ha', h⟩
        cases ha.symm.trans ha'
        exact h

theorem readAttribute_congr (hregistry : t.registry = s.registry)
    (hshape : s.world.store.SameShape t.world.store) (hwrote : s.Wrote t r name none) :
    readAttribute t r name = .ok v ↔ readAttribute s r name = .ok v := by
  simp only [readAttribute_eq_ok, hregistry,
    hshape.read_eq fun place _ => hwrote place _]

/-- A value that was written as an attribute reads back. -/
theorem readAttribute_of_wrote {schema : ClassSchema} {a : Attribute} {v' : Value}
    (hschema : s.registry.schema r.className = .ok schema) (ha : schema.attribute? name = some a)
    (hsettled : a.Settled v') (hfield : s.world.store.checkField r name = .ok ())
    (hvisible : s.world.store.Visible r) (hregistry : t.registry = s.registry)
    (hshape : s.world.store.SameShape t.world.store) (hwrote : s.Wrote t r name (some v')) :
    readAttribute t r name = .ok v' := by
  obtain ⟨place, hplace⟩ := Option.isSome_iff_exists.mp hvisible
  refine readAttribute_eq_ok.mpr ⟨schema, a, by rw [hregistry, hschema], ha, ?_⟩
  have hread : t.world.store.read r name a.getter
      = (t.world.store.checkField r name).map fun _ =>
        t.world.store.stored place r name a.getter.multi :=
    Store.read_of_location ((hshape.location r).trans hplace)
      (by simp [Attribute.getter, Accessor.getter, Accessor.isObject])
  have hstored : t.world.store.stored place r name a.getter.multi = v' :=
    (hwrote place _).trans ((if_pos hplace).trans hsettled.orEmpty_eq)
  rw [hread, hshape.checkField, hfield, hstored]
  rfl

/-- Nothing of a class that is not visible can be read. -/
theorem mem_classes_of_readAttribute (h : readAttribute s r name = .ok v) :
    r.className ∈ s.world.store.classes := by
  obtain ⟨_, _, _, _, hread⟩ := readAttribute_eq_ok.mp h
  exact Store.mem_classes_of_read hread

/-- What was written of an attribute makes its record tell what the object reads as. -/
theorem readAttribute_of_attributeStored {u : Workspace} {target : Target} {f : Field}
    (hprepares : s.Prepares u) (hstore : u.world.store = s.world.store)
    (htargeted : Targeted s u target)
    (hvisible : s.world.store.Visible (u.world.recordOf target.proxy))
    (hregistry : t.registry = s.registry) (hshape : s.world.store.SameShape t.world.store)
    (hattribute : AttributeStored .pedantic target.proxy name u t f)
    (hstored : f.asStored? = some c) :
    readAttribute t (u.world.recordOf target.proxy) name = .ok c ↔
      Restores s (u.world.recordOf target.proxy) name f := by
  have hkept : ∀ {v : Option Value}, u.Wrote t (u.world.recordOf target.proxy) name v →
      s.Wrote t (u.world.recordOf target.proxy) name v :=
    fun h => Wrote.none_trans (fun _ _ => by rw [hstore]) h (by rw [hstore])
  cases f with
  | value v =>
    cases hstored
    rcases hattribute with ⟨a, v', ha, hcoerce, hfield, hwrote⟩ | ⟨hpolicy, -⟩
    · rw [htargeted.registry, hprepares.isKnown] at hcoerce
      have hread := readAttribute_of_wrote htargeted.schema ha (Attribute.coerce_settled hcoerce)
        (hstore ▸ hfield) hvisible hregistry hshape (hkept hwrote)
      have hcoerced : coerceFor s (u.world.recordOf target.proxy) name c = .ok v' := by
        rw [coerceFor, htargeted.schema]
        simp only [bind, Except.bind, ha]
        exact hcoerce
      rw [hread, Restores, hcoerced]
    · cases hpolicy
  | unset =>
    cases hstored
    exact readAttribute_congr hregistry hshape (hkept hattribute)
  | _ => cases hstored

/-- When an attribute reads back as the object shows it after a successful update.  If the update wrote
to the record itself, then a value reads back exactly when coercing it leaves it as it is, and what
shows nothing reads back as null exactly when null was stored already; if a record of a derived class
stood in the way, then exactly when it read so before. -/
theorem updateWith_attribute_reads_iff {a : Attribute} {f : Field}
    (hnamed : (s.world.object o).schema.WellNamed)
    (hvisible : s.world.store.Visible (s.world.object o).record)
    (ha : (s.world.object o).schema.attribute? name = some a)
    (hnone : (s.world.object o).schema.relation? name = none)
    (hrun : updateWith .pedantic o false s = (.ok p, t))
    (hreads : (t.world.object o).reads name = .ok f) (hstored : f.asStored? = some c) :
    readAttribute t (s.world.object o).record name = .ok c ↔
      if s.world.store.find (s.world.object o).className (s.world.object o).id
          = some (s.world.object o).record then Restores s (s.world.object o).record name f
      else readAttribute s (s.world.object o).record name = .ok c := by
  obtain ⟨r, hr⟩ : ∃ r, r = (s.world.object o).record := ⟨_, rfl⟩
  obtain ⟨targets, u, hprepare, hwrite, -⟩ := persist_run hrun
  obtain ⟨hprepares, hprepared⟩ := prepared_of_foldlM (nodup_persisted s false o)
    (fun x hx => List.mem_singleton.mp hx ▸ hnamed) hprepare
  obtain ⟨targets', u', hfirst, hpure⟩ := bind_eq_ok.mp hprepare
  obtain ⟨heq, rfl⟩ := Prod.mk.inj hpure
  cases heq
  have hwrites := forM_writeObject_writes rfl hprepared hwrite
  have hregistry : t.registry = s.registry :=
    hwrites.sessionRegistry.trans hprepares.sessionRegistry
  have hscope := hprepares.scope.trans hwrites.shape.scope
  rw [← hr] at hvisible ⊢
  by_cases hclass : r.className ∈ s.world.store.classes
  · obtain ⟨hstore, target, htarget, htargeted, hfind⟩ :=
      prepare_visible (by rw [hr] at hclass; exact hclass) (by rw [← hr]; exact hvisible) hfirst
    have hshape : s.world.store.SameShape t.world.store := hstore ▸ hwrites.shape
    have htarget' : targets.get? (u'.world.nameOf o) = some target := by
      rw [hprepares.nameOf]
      exact htarget
    by_cases hsame : u'.world.recordOf target.proxy = r
    · subst hsame
      obtain ⟨f', hreads', hattribute⟩ := forM_writeObject_attribute rfl hprepared
        ⟨List.mem_cons_self, htarget', fun x hx hne => absurd (List.mem_singleton.mp hx) hne⟩
        (by rw [hprepares.schemaOf]; exact ClassSchema.mem_attributes_of_attribute? ha)
        (by rw [hprepares.schemaOf]; exact hnone) hwrite
      rw [(hwrites.alike o).reads] at hreads
      obtain rfl := Except.ok.inj (hreads'.symm.trans hreads)
      rw [if_pos hfind]
      exact readAttribute_of_attributeStored hprepares hstore htargeted hvisible hregistry hshape
        hattribute hstored
    · rw [if_neg fun h => hsame (Option.some.inj (hfind.symm.trans h))]
      have hwrote : u'.Wrote t r name none := by
        apply hwrites.wrote
        rintro ⟨x, hx, htargetOf, -⟩
        obtain rfl := List.mem_singleton.mp hx
        rw [World.targetOf, htarget'] at htargetOf
        exact hsame (Option.some.inj htargetOf)
      exact readAttribute_congr hregistry hshape
        (Wrote.none_trans (fun _ _ => by rw [hstore]) hwrote (by rw [hstore]))
  · rw [if_neg fun hfind => hclass (Store.find_eq_some hfind).2.2.2]
    refine iff_of_false (fun hread => hclass ?_) fun hread => hclass ?_
    · exact hscope.classes ▸ mem_classes_of_readAttribute hread
    · exact mem_classes_of_readAttribute hread

/-- A record with a note. -/
def labelled : Store :=
  { severed with databases := .insert .empty "near" {
      includes := ["people"]
      records := .insert .empty ⟨"Person", "a"⟩ (.insert .empty "note" (.text "x")) } }

def labelledSession : Workspace :=
  { severedSession with world := { severedSession.world with store := labelled } }

def labelledHydrated : Workspace := (getObject "Person" "a" labelledSession).2

/-- The object of the record without its note. -/
def labelledCleared : Workspace := (setAll ⟨0⟩ [("note", .unset)] labelledHydrated).2

def labelledUpdated : Workspace := (updateWith .pedantic ⟨0⟩ false labelledCleared).2

theorem labelled_attribute_kept :
    (readAttribute labelledUpdated ⟨"Person", "a"⟩ "note").toOption.map Value.isNull
      = some false := by
  decide +kernel

theorem labelledUpdated_run :
    ∃ p, updateWith .pedantic ⟨0⟩ false labelledCleared = (.ok p, labelledUpdated) :=
  run_of_isOk (by decide +kernel)

/-- The update that follows the clearing of the note does not make the record tell of it. -/
theorem updateWith_attribute_reads_iff_labelled :
    (labelledCleared.world.object ⟨0⟩).record = ⟨"Person", "a"⟩
      ∧ ¬ Restores labelledCleared ⟨"Person", "a"⟩ "note" .unset := by
  have hrecord : (labelledCleared.world.object ⟨0⟩).record = ⟨"Person", "a"⟩ := by decide +kernel
  obtain ⟨p, hrun⟩ := labelledUpdated_run
  have hattribute : ((labelledCleared.world.object ⟨0⟩).schema.attribute? "note").isSome = true := by
    decide +kernel
  obtain ⟨a, ha⟩ := Option.isSome_iff_exists.mp hattribute
  have hread := updateWith_attribute_reads_iff (by decide +kernel) (by decide +kernel) ha
    (Option.isNone_iff_eq_none.mp (by decide +kernel)) hrun (f := .unset) (by rfl) rfl
  rw [if_pos (by decide +kernel), hrecord] at hread
  refine ⟨hrecord, fun hrestores => ?_⟩
  have hkept := labelled_attribute_kept
  rw [hread.mpr hrestores] at hkept
  simp [Except.toOption, Value.isNull] at hkept

/-- A cleared attribute does not read as null after a successful update. -/
theorem not_attribute_reads_of_cleared :
    ¬ ∀ (s t u : Workspace) (o : ObjectId) (p : ProxyId) (fields : List (String × Field))
      (name : String) (a : Attribute) (f : Field) (c : Value),
      setAll o fields s = (.ok (), t) → t.world.store.Visible (t.world.object o).record →
      updateWith .pedantic o false t = (.ok p, u) →
      (u.world.object o).schema.attribute? name = some a → a.type ≠ .float →
      (u.world.object o).reads name = .ok f → f.asStored? = some c →
      readAttribute u (u.world.object o).record name = .ok c := by
  intro hclaim
  obtain ⟨_, hset⟩ := run_of_isOk (m := setAll ⟨0⟩ [("note", .unset)]) (s := labelledHydrated)
    (by decide +kernel)
  obtain ⟨p, hrun⟩ := labelledUpdated_run
  have hattribute : ((labelledUpdated.world.object ⟨0⟩).schema.attribute? "note").map Attribute.type
      = some (.text .string) := by decide +kernel
  obtain ⟨a, ha, htype⟩ := Option.map_eq_some_iff.mp hattribute
  have hread := hclaim labelledHydrated labelledCleared labelledUpdated ⟨0⟩ p _ "note" a .unset .null
    hset (by decide +kernel) hrun ha (by simp [htype]) (by rfl) rfl
  have hrecord : (labelledUpdated.world.object ⟨0⟩).record = ⟨"Person", "a"⟩ := by decide +kernel
  have hkept := labelled_attribute_kept
  rw [← hrecord, hread] at hkept
  simp [Except.toOption, Value.isNull] at hkept

end Session

end RecordGraph
