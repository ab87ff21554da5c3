import RecordGraph.Proofs.Object.Reading
import RecordGraph.Proofs.Proxy.Writing
import RecordGraph.Proofs.Session.Growth
import RecordGraph.Session.Persist

/-!
Writing objects to their records.  Writing leaves the shape of the store, the registries and whatever
objects read as alone; it changes stored fields of the records that are written to, and reports fields
that it skips.
-/

namespace RecordGraph

open RecordGraph.Computation

namespace Workspace

/-- The report that a field of an object was skipped. -/
def skipped (s : Workspace) (o : ObjectId) (name text : String) : Warning :=
  .fieldSkipped (s.world.object o).className (s.world.object o).id name text

/-- What persisting leaves alone: the registries, the session but for its cache, the records behind
proxies, and whatever objects read as. -/
structure Steady (s t : Workspace) : Prop where
  registries : t.world.registries = s.world.registries
  session : t.session = { s.session with cache := t.session.cache }
  objects : t.world.objects.size = s.world.objects.size
  proxies : s.world.proxies.size ≤ t.world.proxies.size
  record : ∀ q : ProxyId, q.index < s.world.proxies.size → t.world.recordOf q = s.world.recordOf q
  schema : ∀ q : ProxyId, q.index < s.world.proxies.size →
    (t.world.proxy q).schema = (s.world.proxy q).schema
  registry : ∀ q : ProxyId, q.index < s.world.proxies.size →
    (t.world.proxy q).registry = (s.world.proxy q).registry
  alike : ∀ o, (s.world.object o).Alike (t.world.object o)

variable {s t u : Workspace}

namespace Steady

theorem refl (s : Workspace) : s.Steady s :=
  ⟨rfl, rfl, rfl, Nat.le_refl _, fun _ _ => rfl, fun _ _ => rfl, fun _ _ => rfl, fun _ => .refl _⟩

theorem trans (hst : s.Steady t) (htu : t.Steady u) : s.Steady u where
  registries := htu.registries.trans hst.registries
  session := by rw [htu.session, hst.session]
  objects := htu.objects.trans hst.objects
  proxies := Nat.le_trans hst.proxies htu.proxies
  record q hq := (htu.record q (Nat.lt_of_lt_of_le hq hst.proxies)).trans (hst.record q hq)
  schema q hq := (htu.schema q (Nat.lt_of_lt_of_le hq hst.proxies)).trans (hst.schema q hq)
  registry q hq := (htu.registry q (Nat.lt_of_lt_of_le hq hst.proxies)).trans (hst.registry q hq)
  alike o := (hst.alike o).trans (htu.alike o)

variable (h : s.Steady t)

include h

theorem registryId : t.session.registry = s.session.registry := by rw [h.session]

theorem registryOf (r : RegistryId) : t.world.registry r = s.world.registry r := by
  unfold World.registry
  rw [h.registries]

theorem sessionRegistry : t.registry = s.registry := by
  unfold Workspace.registry
  rw [h.registryId, h.registryOf]

theorem isKnown (r : RegistryId) : t.world.isKnown r = s.world.isKnown r := by
  funext className
  unfold World.isKnown
  rw [h.registryOf]

theorem nameOf (o : ObjectId) : t.world.nameOf o = s.world.nameOf o := (h.alike o).fullName

theorem schemaOf (o : ObjectId) : (t.world.object o).schema = (s.world.object o).schema :=
  (h.alike o).schema

theorem recordOf (o : ObjectId) : (t.world.object o).record = (s.world.object o).record :=
  (h.alike o).record

theorem skipped_eq (o : ObjectId) (name text : String) :
    t.skipped o name text = s.skipped o name text := by
  unfold skipped Object.className
  rw [(h.alike o).type, (h.alike o).id]

end Steady

/-- One workspace comes from another by writing some fields of records, and skipping some fields of
objects. -/
structure Writes (W : RecordRef → String → Prop) (P : ObjectId → String → Prop) (s t : Workspace) :
    Prop extends Steady s t where
  shape : s.world.store.SameShape t.world.store
  stored : ∀ place r name multi, ¬ (W r name ∧ s.world.store.location r = some place) →
    t.world.store.stored place r name multi = s.world.store.stored place r name multi
  reports : ∃ new, t.world.warnings = s.world.warnings ++ new
    ∧ ∀ warning ∈ new, ∃ o name text, P o name ∧ warning = s.skipped o name text

variable {W W' : RecordRef → String → Prop} {P P' : ObjectId → String → Prop}

namespace Writes

theorem refl (W : RecordRef → String → Prop) (P : ObjectId → String → Prop) (s : Workspace) :
    Writes W P s s where
  toSteady := .refl s
  shape := .refl _
  stored _ _ _ _ _ := rfl
  reports := ⟨[], (List.append_nil _).symm, by simp⟩

theorem trans (hst : Writes W P s t) (htu : Writes W P t u) : Writes W P s u where
  toSteady := hst.toSteady.trans htu.toSteady
  shape := hst.shape.trans htu.shape
  stored place r name multi hnot :=
    (htu.stored place r name multi (hst.shape.location r ▸ hnot)).trans
      (hst.stored place r name multi hnot)
  reports := by
    obtain ⟨first, hfirst, hall⟩ := hst.reports
    obtain ⟨second, hsecond, hall'⟩ := htu.reports
    refine ⟨first ++ second, by rw [hsecond, hfirst, List.append_assoc], ?_⟩
    intro warning hwarning
    rcases List.mem_append.mp hwarning with hwarning | hwarning
    · exact hall warning hwarning
    · obtain ⟨o, name, text, hP, rfl⟩ := hall' warning hwarning
      exact ⟨o, name, text, hP, hst.skipped_eq o name text⟩

theorem mono (h : Writes W P s t) (hW : ∀ r name, W r name → W' r name)
    (hP : ∀ o name, P o name → P' o name) : Writes W' P' s t where
  toSteady := h.toSteady
  shape := h.shape
  stored place r name multi hnot :=
    h.stored place r name multi fun hyes => hnot ⟨hW r name hyes.1, hyes.2⟩
  reports := by
    obtain ⟨new, hnew, hall⟩ := h.reports
    refine ⟨new, hnew, fun warning hwarning => ?_⟩
    obtain ⟨o, name, text, hyes, heq⟩ := hall warning hwarning
    exact ⟨o, name, text, hP o name hyes, heq⟩

end Writes

/-- One workspace comes from another by making and reading through proxies. -/
structure Looks (s t : Workspace) : Prop where
  session : t.session = s.session
  world : s.world.Extends t.world
  warnings : t.world.warnings = s.world.warnings

namespace Looks

theorem refl (s : Workspace) : s.Looks s := ⟨rfl, .refl _, rfl⟩

theorem trans (hst : s.Looks t) (htu : t.Looks u) : s.Looks u :=
  ⟨htu.session.trans hst.session, hst.world.trans htu.world, htu.warnings.trans hst.warnings⟩

theorem object (h : s.Looks t) (o : ObjectId) : t.world.object o = s.world.object o := by
  unfold World.object
  rw [h.world.objects]

theorem steady (h : s.Looks t) : s.Steady t where
  registries := h.world.registries
  session := by rw [h.session]
  objects := congrArg Arena.size h.world.objects
  proxies := h.world.size_le
  record := h.world.record
  schema := h.world.schema
  registry := h.world.registry
  alike o := by
    rw [h.object]
    exact .refl _

theorem writes (h : s.Looks t) (W : RecordRef → String → Prop) (P : ObjectId → String → Prop) :
    Writes W P s t where
  toSteady := h.steady
  shape := by rw [Store.SameShape, h.world.store]
  stored _ _ _ _ _ := by rw [h.world.store]
  reports := ⟨[], h.warnings.trans (List.append_nil _).symm, by simp⟩

end Looks

/-! ### Single steps -/

/-- Changing an object to one that reads the same. -/
theorem writes_changeObject (W : RecordRef → String → Prop) (P : ObjectId → String → Prop)
    {o : ObjectId} {f : Object → Object} (h : (s.world.object o).Alike (f (s.world.object o))) :
    Writes W P s { s with world := s.world.changeObject o f } where
  registries := rfl
  session := rfl
  objects := by simp [World.changeObject]
  proxies := Nat.le_refl _
  record _ _ := rfl
  schema _ _ := rfl
  registry _ _ := rfl
  alike p := by
    rw [World.object_changeObject]
    split
    · rename_i hp
      exact hp.1 ▸ h
    · exact .refl _
  shape := .refl _
  stored _ _ _ _ _ := rfl
  reports := ⟨[], (List.append_nil _).symm, by simp⟩

/-- Caching an object. -/
theorem writes_cache (W : RecordRef → String → Prop) (P : ObjectId → String → Prop)
    (s : Workspace) (o : ObjectId) : Writes W P s (s.cache o) where
  toSteady := ⟨rfl, rfl, rfl, Nat.le_refl _, fun _ _ => rfl, fun _ _ => rfl, fun _ _ => rfl,
    fun _ => .refl _⟩
  shape := .refl _
  stored _ _ _ _ _ := rfl
  reports := ⟨[], (List.append_nil _).symm, by simp⟩

/-- Reporting a field that is skipped. -/
theorem writes_skip (W : RecordRef → String → Prop) {P : ObjectId → String → Prop} {o : ObjectId}
    {name : String} (text : String) (hP : P o name) :
    Writes W P s { s with world := s.world.warn [s.skipped o name text] } where
  toSteady := ⟨rfl, rfl, rfl, Nat.le_refl _, fun _ _ => rfl, fun _ _ => rfl, fun _ _ => rfl,
    fun _ => .refl _⟩
  shape := .refl _
  stored _ _ _ _ _ := rfl
  reports := ⟨[s.skipped o name text], rfl, fun _ hwarning =>
    ⟨o, name, text, hP, List.mem_singleton.mp hwarning⟩⟩

/-- Writing a value to a field of the record behind a proxy. -/
theorem writes_put (P : ObjectId → String → Prop) {p : ProxyId} {name place : String} (v : Value)
    (hplace : s.world.store.location (s.world.recordOf p) = some place)
    (hW : W (s.world.recordOf p) name) :
    Writes W P s { s with world := s.world.put p name place v } where
  toSteady := ⟨rfl, rfl, rfl, Nat.le_refl _, fun _ _ => rfl, fun _ _ => rfl, fun _ _ => rfl,
    fun _ => .refl _⟩
  shape := Store.sameShape_put hplace
  stored place' r name' multi hnot := by
    refine (Store.stored_put hplace multi).trans (if_neg ?_)
    rintro ⟨rfl, rfl, rfl⟩
    exact hnot ⟨hW, hplace⟩
  reports := ⟨[], (List.append_nil _).symm, by simp⟩

/-- Keeping a relation in a proxy. -/
theorem looks_changeProxy (s : Workspace) (p : ProxyId) (name : String) (related : Related) :
    s.Looks { s with
      world := s.world.changeProxy p fun proxy => (proxy.restore name).cache name related } :=
  ⟨rfl, World.extends_changeProxy _ _ (fun _ => rfl) (fun _ => rfl) fun _ => rfl, rfl⟩

/-! ### Written fields -/

/-- What came to be stored for a field of a record: a value that was written, or what was stored
before. -/
def Wrote (s t : Workspace) (r : RecordRef) (name : String) : Option Value → Prop
  | some v => ∀ place multi, t.world.store.stored place r name multi
      = if s.world.store.location r = some place then v.orEmpty multi
        else s.world.store.stored place r name multi
  | none => ∀ place multi,
      t.world.store.stored place r name multi = s.world.store.stored place r name multi

variable {r : RecordRef} {name : String} {v : Option Value}

theorem wrote_put {p : ProxyId} {place : String} (v : Value)
    (hplace : s.world.store.location (s.world.recordOf p) = some place) :
    s.Wrote { s with world := s.world.put p name place v } (s.world.recordOf p) name (some v) := by
  intro place' multi
  apply (Store.stored_put hplace multi).trans
  by_cases heq : place' = place
  · subst heq
    rw [if_pos ⟨rfl, rfl, rfl⟩, if_pos hplace]
  · rw [if_neg fun h => heq h.1, if_neg fun h => heq (Option.some.inj (h.symm.trans hplace))]

theorem Writes.wrote (h : Writes W P s t) (hW : ¬ W r name) : s.Wrote t r name none :=
  fun place multi => h.stored place r name multi fun hyes => hW hyes.1

/-- A later write hides the writes before it. -/
theorem Writes.wrote_some {v : Value} (h : Writes W P s t) (htu : t.Wrote u r name (some v)) :
    s.Wrote u r name (some v) := by
  intro place multi
  rw [htu place multi, h.shape.location]
  split
  · rfl
  · rename_i hplace
    exact h.stored place r name multi fun hyes => hplace hyes.2

theorem Wrote.trans_none (hst : s.Wrote t r name v) (htu : t.Wrote u r name none) :
    s.Wrote u r name v := by
  cases v with
  | none => exact fun place multi => (htu place multi).trans (hst place multi)
  | some v => exact fun place multi => (htu place multi).trans (hst place multi)

theorem Wrote.writes (h : s.Wrote t r name v) (htu : Writes W P t u) (hW : ¬ W r name) :
    s.Wrote u r name v :=
  h.trans_none (htu.wrote hW)

theorem Wrote.none_trans (hst : s.Wrote t r name none) (htu : t.Wrote u r name v)
    (hlocation : t.world.store.location r = s.world.store.location r) : s.Wrote u r name v := by
  cases v with
  | none => exact fun place multi => (htu place multi).trans (hst place multi)
  | some v =>
    intro place multi
    rw [htu place multi, hlocation, hst place multi]

/-! ### Reports -/

/-- Whether it was reported in the meantime that a field of an object was skipped. -/
def skips (s t : Workspace) (o : ObjectId) (name : String) : Bool :=
  (t.world.warnings.drop s.world.warnings.length).any fun warning => match warning with
    | .fieldSkipped className id field _ =>
      (className, id, field) == ((s.world.object o).className, (s.world.object o).id, name)
    | _ => false

variable {o : ObjectId}

theorem skips_iff : s.skips t o name = true
    ↔ ∃ text, s.skipped o name text ∈ t.world.warnings.drop s.world.warnings.length := by
  unfold skips skipped
  rw [List.any_eq_true]
  constructor
  · rintro ⟨warning, hmem, hmatch⟩
    split at hmatch
    · rename_i text
      simp only [beq_iff_eq, Prod.mk.injEq] at hmatch
      obtain ⟨rfl, rfl, rfl⟩ := hmatch
      exact ⟨text, hmem⟩
    · simp at hmatch
  · rintro ⟨text, hmem⟩
    exact ⟨_, hmem, by simp⟩

theorem Writes.skips_trans (hst : Writes W P s t) (htu : Writes W' P' t u) :
    s.skips u o name = (s.skips t o name || t.skips u o name) := by
  obtain ⟨first, hfirst, -⟩ := hst.reports
  obtain ⟨second, hsecond, -⟩ := htu.reports
  unfold skips Object.className
  rw [hsecond, List.drop_left, hfirst, List.append_assoc, List.drop_left, List.drop_left,
    List.any_append, (hst.alike o).type, (hst.alike o).id]

/-- A report is about an object that a field was skipped of. -/
theorem Writes.of_skips (h : Writes W P s t) (hskips : s.skips t o name = true) :
    ∃ o', P o' name ∧ (s.world.object o').record = (s.world.object o).record := by
  obtain ⟨text, hmem⟩ := skips_iff.mp hskips
  obtain ⟨new, hnew, hall⟩ := h.reports
  rw [hnew, List.drop_left] at hmem
  obtain ⟨o', name', text', hP, heq⟩ := hall _ hmem
  unfold skipped at heq
  simp only [Warning.fieldSkipped.injEq] at heq
  obtain ⟨hclass, hid, rfl, -⟩ := heq
  exact ⟨o', hP, by unfold Object.record; rw [hclass, hid]⟩

theorem skips_of_warnings_eq (h : t.world.warnings = s.world.warnings) :
    s.skips t o name = false := by
  unfold skips
  rw [h, List.drop_length]
  rfl

theorem skips_skip (s : Workspace) (o : ObjectId) (name text : String) :
    s.skips { s with world := s.world.warn [s.skipped o name text] } o name = true := by
  rw [skips_iff]
  exact ⟨text, by simp [World.warn]⟩

end Workspace

/-- Making a proxy for a record. -/
theorem Session.looks_proxyFor {s t : Workspace} {r : RecordRef} {p : ProxyId}
    (hrun : Session.proxyFor r s = (.ok p, t)) :
    s.Looks t ∧ (s.registry.schema r.className = .ok (t.world.proxy p).schema
      ∧ (t.world.proxy p).registry = s.session.registry)
      ∧ t.world.recordOf p = r ∧ p.index < t.world.proxies.size := by
  obtain ⟨schema, hschema, rfl, rfl⟩ := Session.proxyFor_eq_ok hrun
  have hpushed : (s.world.pushProxy { record := r, schema, registry := s.session.registry }).proxy
      ⟨s.world.proxies.size⟩ = { record := r, schema, registry := s.session.registry } := by
    rw [World.proxy_pushProxy, if_pos rfl]
  refine ⟨⟨rfl, World.extends_pushProxy _ _, rfl⟩, ⟨?_, ?_⟩, ?_, by simp [World.pushProxy]⟩
  · rw [hpushed]
    exact hschema
  · rw [hpushed]
  · exact congrArg Proxy.record hpushed

/-- Looking a record up. -/
theorem Session.looks_record {s t : Workspace} {className id : String} {p : ProxyId}
    (hrun : Session.record className id s = (.ok p, t)) :
    s.Looks t ∧ (s.registry.schema (t.world.recordOf p).className = .ok (t.world.proxy p).schema
        ∧ (t.world.proxy p).registry = s.session.registry)
      ∧ s.world.store.find className id = some (t.world.recordOf p)
      ∧ p.index < t.world.proxies.size := by
  obtain ⟨r, u, hfind, hproxy⟩ := bind_eq_ok.mp hrun
  obtain ⟨hfound, rfl⟩ := askStore_run hfind
  obtain ⟨hlooks, hschema, rfl, hbound⟩ := looks_proxyFor hproxy
  exact ⟨hlooks, hschema, Store.getRecord_eq_ok.mp hfound, hbound⟩

/-- Looking a record up succeeds where it is found and the session has a schema for its class. -/
theorem Session.record_ok_iff {s : Workspace} {className id : String} :
    (∃ p t, Session.record className id s = (.ok p, t))
      ↔ ∃ r, s.world.store.getRecord className id = .ok r
        ∧ s.registry.schemas.contains r.className = true := by
  constructor
  · rintro ⟨p, t, hrun⟩
    obtain ⟨-, ⟨hschema, -⟩, hfind, -⟩ := looks_record hrun
    refine ⟨_, Store.getRecord_eq_ok.mpr hfind, ?_⟩
    rw [← OrderedMap.get?_isSome, Registry.schema_eq_ok.mp hschema]
    rfl
  · rintro ⟨r, hfound, hknown⟩
    obtain ⟨schema, hschema⟩ :=
      Option.isSome_iff_exists.mp ((OrderedMap.get?_isSome _ _).trans hknown)
    have hask : askStore (fun store => store.getRecord className id) s = (.ok r, s) := by
      rw [askStore_apply, hfound]
    exact ⟨_, _, (bind_of_ok hask).trans (proxyFor_of_ok (Registry.schema_eq_ok.mpr hschema))⟩

end RecordGraph
