import RecordGraph.Proofs.Registry.Evolution
import RecordGraph.Proofs.Session.Assigning

/-!
Orderly worlds.  Whatever sessions do, proxies go by the schemas that their registries have, and objects
hold nothing but fields of their classes: checked and unchecked writes look at the schema of the class,
initial values come from it, and hydration loads the fields of a proxy whose schema is that of the
object's type.
-/

namespace RecordGraph

open RecordGraph.Computation

namespace Object

variable {o : Object} {name : String} {f : Field}

/-- Every field that holds something is one of the class. -/
def Declared (o : Object) : Prop := ∀ name f, o.fields.get? name = some f → o.schema.hasField name = true

theorem declared_new (type : ClassType) (id : String) : Declared { type, id } :=
  fun _ _ h => by simp at h

theorem Declared.insert (h : o.Declared) (hname : o.schema.hasField name = true) :
    Declared { o with fields := o.fields.insert name f } := by
  intro other g hg
  rw [OrderedMap.get?_insert] at hg
  split at hg
  · rename_i heq
    exact heq ▸ hname
  · exact h other g hg

theorem Declared.load (h : o.Declared) (hname : f.isUnset = false → o.schema.hasField name = true) :
    (o.load name f).Declared := by
  unfold Object.load
  cases hunset : f.isUnset with
  | true =>
    intro other g hg
    simp only [if_true, OrderedMap.get?_erase] at hg
    split at hg
    · cases hg
    · exact h other g hg
  | false => exact h.insert (hname hunset)

theorem Declared.write (h : o.Declared) (hname : f.isUnset = false → o.schema.hasField name = true) :
    (o.write name f).Declared := by
  obtain ⟨touched, heq⟩ := write_eq o name f
  rw [heq]
  exact h.load hname

/-- Reading keeps initial values of fields of the class. -/
theorem Declared.read {p : Object} (h : o.Declared) (hread : o.read name = .ok (f, p)) :
    p.Declared := by
  unfold Object.read at hread
  split at hread
  · cases hread
    exact h
  · split at hread
    · cases hread
      exact h
    · obtain ⟨g, hinitial, hrest⟩ := except_bind_eq_ok.mp hread
      have hname : o.schema.hasField name = true := by
        unfold initial at hinitial
        cases hattribute : o.schema.attribute? name with
        | some a => exact ClassSchema.hasField_of_attribute hattribute
        | none =>
          cases hrelation : o.schema.relation? name with
          | some r => exact ClassSchema.hasField_of_relation hrelation
          | none => simp [hattribute, hrelation] at hinitial
      cases g <;> cases hrest
      · exact h
      all_goals exact h.insert hname

end Object

namespace Registry

variable {r : Registry} {home : RegistryId}

/-- Schemas and types stand under the names of their classes, and so do the relations of a schema, and
types have the schemas. -/
structure Orderly (r : Registry) : Prop where
  named : r.NamesSchemas
  wellNamed : ∀ c s, r.schemas.get? c = some s → s.WellNamed
  consistent : r.Consistent

theorem orderly_empty : Orderly {} :=
  ⟨fun _ _ h => by simp at h, fun _ _ h => by simp at h, fun _ _ h => by simp at h⟩

theorem Orderly.of_eq {r' : Registry} (h : r.Orderly) (hschemas : r'.schemas = r.schemas)
    (htypes : r'.types = r.types) : r'.Orderly :=
  ⟨fun c s hs => h.named c s (hschemas ▸ hs), fun c s hs => h.wellNamed c s (hschemas ▸ hs),
    fun c t ht => hschemas.symm ▸ h.consistent c t (htypes ▸ ht)⟩

theorem Orderly.insertType {t : ClassType} (h : r.Orderly)
    (ht : ∃ c, r.schemas.get? c = some t.schema) : (r.insertType t).Orderly := by
  obtain ⟨c, hc⟩ := ht
  refine ⟨h.named, h.wellNamed, fun d u hu => ?_⟩
  rw [Registry.insertType, OrderedMap.get?_insert] at hu
  split at hu
  · rename_i hd
    cases hu
    refine ⟨hd.symm, ?_⟩
    rw [hd, ClassType.name, h.named c _ hc]
    exact hc
  · exact h.consistent d u hu

theorem Orderly.insertSchema {h : Hierarchy} {c : String} {s : ClassSchema} (hr : r.Orderly)
    (hs : ClassSchema.LoadedFrom h c s) (hnew : r.types.get? c = none) :
    Orderly { r with schemas := r.schemas.insert c s } := by
  have hinserted : ∀ d u, (r.schemas.insert c s).get? d = some u →
      d = c ∧ u = s ∨ r.schemas.get? d = some u := by
    intro d u hu
    rw [OrderedMap.get?_insert] at hu
    split at hu
    · rename_i hd
      exact .inl ⟨hd, (Option.some.inj hu).symm⟩
    · exact .inr hu
  refine ⟨fun d u hu => ?_, fun d u hu => ?_, fun d t ht => ?_⟩
  · rcases hinserted d u hu with ⟨rfl, rfl⟩ | hold
    · exact hs.name_eq
    · exact hr.named d u hold
  · rcases hinserted d u hu with ⟨-, rfl⟩ | hold
    · exact hs.wellNamed
    · exact hr.wellNamed d u hold
  · have hd : d ≠ c := by
      rintro rfl
      cases hnew.symm.trans ht
    obtain ⟨hname, hschema⟩ := hr.consistent d t ht
    exact ⟨hname, by rwa [OrderedMap.get?_insert, if_neg hd]⟩

theorem preserves_orderly_derive (schemas : OrderedMap String ClassSchema) (classNames : List String) :
    Preserves (fun r => r.Orderly ∧ r.schemas = schemas) (derive home classNames) :=
  preserves_derive_schema (fun _ _ _ hr hs _ ht =>
    ⟨hr.1.insertType ((derived?_eq_some ht).1 ▸ hs), hr.2⟩) classNames

theorem preserves_orderly_register (schemas : OrderedMap String ClassSchema) (className : String)
    (bases : List ClassType) :
    Preserves (fun r => r.Orderly ∧ r.schemas = schemas) (register home className bases) := by
  intro r hr
  rw [register, bind_of_ok (get_apply r)]
  cases r.types.get? className with
  | some t => exact hr
  | none =>
    dsimp only
    rw [bind_apply, ofExcept_apply]
    cases hschema : r.schema className with
    | error e => exact hr
    | ok s => exact ⟨hr.1.insertType ⟨className, schema_eq_ok.mp hschema⟩, hr.2⟩

end Registry

namespace World

variable {v w : World} {r : RegistryId} {o : ObjectId}

/-- Registries are orderly, proxies have the schemas that their registries know for the classes of
their records, and objects hold fields of their classes only. -/
structure Orderly (w : World) : Prop where
  registries : ∀ r, (w.registry r).Orderly
  proxies : ∀ p : ProxyId, p.index < w.proxies.size →
    (w.registry (w.proxy p).registry).schemas.get? (w.recordOf p).className = some (w.proxy p).schema
  objects : ∀ o, (w.object o).Declared

namespace Orderly

theorem of_sameTypes (h : v.Orderly) (hsame : v.SameTypes w) (hproxies : w.proxies = v.proxies)
    (hobjects : ∀ o, (w.object o).Declared) : w.Orderly where
  registries r := (h.registries r).of_eq (hsame.schemas r) (hsame.types r)
  proxies p hp := by
    unfold recordOf proxy
    rw [hproxies] at hp ⊢
    rw [hsame.schemas]
    exact h.proxies p hp
  objects := hobjects

theorem of_eq (h : v.Orderly) (hregistries : w.registries = v.registries)
    (hobjects : w.objects = v.objects) (hproxies : w.proxies = v.proxies) : w.Orderly := by
  have hregistry : w.registry = v.registry := by
    unfold World.registry
    rw [hregistries]
  refine h.of_sameTypes ⟨fun _ => by rw [hregistry], fun _ => by rw [hregistry]⟩ hproxies fun o => ?_
  unfold object
  rw [hobjects]
  exact h.objects o

theorem changeRegistry (h : w.Orderly) {f : Registry → Registry} (hf : (f (w.registry r)).Orderly)
    (hkept : ∀ p : ProxyId, p.index < w.proxies.size → (w.proxy p).registry = r →
      (f (w.registry r)).schemas.get? (w.recordOf p).className
        = (w.registry r).schemas.get? (w.recordOf p).className) : (w.changeRegistry r f).Orderly := by
  refine ⟨fun other => ?_, fun p hp => ?_, h.objects⟩
  · rw [registry_changeRegistry]
    split
    · exact hf
    · exact h.registries other
  · change ((w.changeRegistry r f).registry (w.proxy p).registry).schemas.get? (w.recordOf p).className = _
    rw [registry_changeRegistry]
    split
    · rename_i hr
      rw [hkept p hp hr.1, ← hr.1]
      exact h.proxies p hp
    · exact h.proxies p hp

theorem changeObject (h : w.Orderly) {f : Object → Object}
    (hf : (f (w.object o)).Declared) : (w.changeObject o f).Orderly := by
  refine h.of_sameTypes (sameTypes_changeObject w o f) rfl fun other => ?_
  rw [object_changeObject]
  split
  · exact hf
  · exact h.objects other

theorem changeProxy (h : w.Orderly) (p : ProxyId) {f : Proxy → Proxy}
    (hf : ∀ proxy, (f proxy).record = proxy.record ∧ (f proxy).schema = proxy.schema
      ∧ (f proxy).registry = proxy.registry) : (w.changeProxy p f).Orderly := by
  refine ⟨h.registries, fun q hq => ?_, h.objects⟩
  have hq : q.index < w.proxies.size := by simpa [World.changeProxy] using hq
  unfold recordOf
  rw [proxy_changeProxy]
  split
  · rename_i heq
    obtain ⟨hrecord, hschema, hregistry⟩ := hf (w.proxy p)
    rw [hrecord, hschema, hregistry, ← heq.1]
    exact h.proxies q hq
  · exact h.proxies q hq

theorem pushObject (h : w.Orderly) (type : ClassType) (id : String) :
    Orderly { w with objects := w.objects.push { type, id } } := by
  refine h.of_sameTypes ⟨fun _ => rfl, fun _ => rfl⟩ rfl fun o => ?_
  have hpush : World.object { w with objects := w.objects.push { type, id } } o
      = if o.index = w.objects.size then { type, id } else w.object o := Arena.read_push ..
  rw [hpush]
  split
  · exact Object.declared_new type id
  · exact h.objects o

theorem newProxy (h : w.Orderly) (r : RegistryId) (record : RecordRef) :
    (Action.newProxy r record w).2.Orderly := by
  cases hschema : (w.registry r).schema record.className with
  | error e => rwa [Action.newProxy_of_error hschema]
  | ok schema =>
    rw [Action.newProxy_of_ok hschema]
    refine ⟨h.registries, fun p hp => ?_, h.objects⟩
    have hp : p.index < w.proxies.size + 1 := by simpa [pushProxy] using hp
    unfold recordOf
    rw [proxy_pushProxy]
    split
    · exact Registry.schema_eq_ok.mp hschema
    · rename_i hne
      exact h.proxies p (by omega)

theorem get (h : w.Orderly) (o : ObjectId) (name : String) : (o.get name w).2.Orderly := by
  rw [ObjectId.get, bind_apply, Action.ask_apply]
  cases hread : (w.object o).read name with
  | error e => exact h
  | ok x => exact h.changeObject ((h.objects o).read hread)

theorem addRegistry (h : w.Orderly) : (w.addRegistry {} []).Orderly :=
  h.of_sameTypes ⟨fun _ => by rw [registry_addRegistry_empty], fun _ => by rw [registry_addRegistry_empty]⟩
    rfl h.objects

theorem onRegistry {α : Type} (h : w.Orderly) {m : RegistryM α}
    (hm : ∀ schemas, Preserves (fun reg => reg.Orderly ∧ reg.schemas = schemas) m) :
    (Action.onRegistry r m w).2.Orderly := by
  obtain ⟨horderly, hschemas⟩ := hm _ (w.registry r) ⟨h.registries r, rfl⟩
  rw [Action.onRegistry_apply]
  exact h.changeRegistry horderly fun p _ _ => by rw [hschemas]

/-- Schemas are about to be loaded for classes on which neither a type nor a proxy relies. -/
structure Loading (r : RegistryId) (classNames : List String) (w : World) : Prop where
  orderly : w.Orderly
  untyped : ∀ c ∈ classNames, (w.registry r).types.get? c = none
  unseen : ∀ p : ProxyId, p.index < w.proxies.size → (w.proxy p).registry = r →
    (w.recordOf p).className ∉ classNames

theorem Loading.loadSchema {classNames : List String} {c : String} (h : Loading r classNames w)
    (hc : c ∈ classNames) : Loading r classNames (r.loadSchema c w).2 := by
  rw [RegistryId.loadSchema, bind_of_ok (get_apply w), bind_apply, Action.logged_apply]
  have hwarned : (w.warn (ClassSchema.load w.store.hierarchy c []).2).Orderly :=
    h.orderly.of_eq rfl rfl rfl
  cases hloaded : (ClassSchema.load w.store.hierarchy c []).1 with
  | error e => exact ⟨hwarned, h.untyped, h.unseen⟩
  | ok s =>
    refine ⟨hwarned.changeRegistry ((hwarned.registries r).insertSchema hloaded (h.untyped c hc))
      fun p hp hr => ?_, fun d hd => ?_, h.unseen⟩
    · rw [OrderedMap.get?_insert, if_neg]
      intro hsame
      rw [← hsame] at hc
      exact h.unseen p hp hr hc
    · dsimp only [modify_apply]
      rw [registry_changeRegistry]
      split <;> exact h.untyped d hd

/-- Schemas are loaded for classes that have none. -/
theorem refreshSchemas (h : w.Orderly) (r : RegistryId) : (r.refreshSchemas w).2.Orderly := by
  have hstart : Loading r
      (w.store.classes.filter fun name => !(w.registry r).schemas.contains name) w := by
    refine ⟨h, fun c hc => ?_, fun p hp hr hadded => ?_⟩
    · cases htype : (w.registry r).types.get? c with
      | none => rfl
      | some t =>
        have hschema := ((h.registries r).consistent c t htype).2
        simp [← OrderedMap.get?_isSome, hschema] at hc
    · have hschema := hr ▸ h.proxies p hp
      simp [← OrderedMap.get?_isSome, hschema] at hadded
  rw [RegistryId.refreshSchemas, bind_of_ok (get_apply w)]
  exact ((Preserves.forM fun c hc t ht => ht.loadSchema hc).bind fun _ => preserves_pure _) w hstart
    |>.orderly

theorem refresh (h : w.Orderly) (r : RegistryId) : (r.refresh w).2.Orderly := by
  have hschemas := h.refreshSchemas r
  rcases r.refresh_cases w with hend | hend
  · rw [hend]
    exact hschemas
  · rw [hend]
    exact hschemas.onRegistry fun schemas =>
      reads_get.preserves.bind fun _ => Registry.preserves_orderly_derive schemas _

/-! ### Calls on objects -/

theorem setId (h : w.Orderly) (o : ObjectId) (id : String) : (w.setId o id).Orderly :=
  h.of_sameTypes (sameTypes_setId w o id) rfl
    (h.changeObject (f := fun _ => { w.object o with id }) (h.objects o)).objects

theorem writeField (h : w.Orderly) {name : String} {f : Field}
    (hname : f.isUnset = false → (w.object o).schema.hasField name = true) :
    (w.writeField o name f).Orderly :=
  h.of_sameTypes (sameTypes_writeField w o name f) rfl
    (h.changeObject ((h.objects o).write hname)).objects

theorem set (h : w.Orderly) (o : ObjectId) (name : String) (f : Field) :
    (o.set name f w).2.Orderly := by
  rcases set_cases w o name f with hset | ⟨-, id, hset⟩ | ⟨-, g, haccept, hset⟩
  all_goals rw [hset]
  · exact h
  · exact h.setId o id
  · refine h.writeField fun hg => ?_
    rcases accept_fits haccept with rfl | hfits
    · cases hg
    · cases hfits with
      | value known _ _ => exact ClassSchema.hasField_of_attribute known
      | one _ known _ => exact ClassSchema.hasField_of_relation known
      | many _ known _ => exact ClassSchema.hasField_of_relation known

theorem setUnchecked (o : ObjectId) (name : String) (f : Field) :
    Preserves Orderly (o.setUnchecked name f) := by
  intro w h
  by_cases hid : ∃ id, name = "id" ∧ f = .value (.text id)
  · obtain ⟨id, rfl, rfl⟩ := hid
    exact h.setId o id
  · rw [ObjectStep.setUnchecked_apply hid]
    split
    · rename_i hname
      exact h.writeField fun _ => hname
    · exact h

theorem call (h : w.Orderly) (r : RegistryId) (call : ObjectCall) : (call.run r w).Orderly := by
  cases call with
  | copy o other =>
    have hcopy : Preserves Orderly (o.copy other) :=
      reads_get.preserves.bind fun _ => .forM fun _ _ => setUnchecked o _ _
    exact hcopy w h
  | single step =>
    cases step with
    | make type id => exact h.pushObject type id
    | set o name f => exact h.set o name f
    | setUnchecked o name f => exact setUnchecked o name f w h
    | rename o id =>
      change (if id = (w.object o).id then w else (w.changeObject o fun object =>
        { object with oldId := some object.storedId }).setId o id).Orderly
      split
      · exact h
      · exact (h.changeObject (f := fun object => { object with oldId := some object.storedId })
          (h.objects o)).setId o id
    | reset => exact h.changeRegistry ((h.registries r).of_eq rfl rfl) fun _ _ _ => rfl

end Orderly

end World

/-! ### Hydration -/

namespace Session

open Workspace

variable {base : World} {s t u : Workspace} {p : ProxyId} {next : Pending}

/-- A session works in an orderly world, and the proxies made since a given world are over its own
registry. -/
structure Sheltered (base : World) (s : Workspace) : Prop where
  orderly : s.world.Orderly
  proxies : base.proxies.size ≤ s.world.proxies.size
  truthful : s.world.Truthful s.session.registry fun q => base.proxies.size ≤ q.index

/-- An object that waits is of a type with the schema of its proxy. -/
structure Fit (base : World) (s : Workspace) (q : Pending) : Prop where
  viewed : base.proxies.size ≤ q.proxy.index
  proxy : q.proxy.index < s.world.proxies.size
  object : q.object.index < s.world.objects.size
  schema : (s.world.object q.object).schema = (s.world.proxy q.proxy).schema

/-- A session goes on hydrating. -/
structure Onward (base : World) (s t : Workspace) : Prop where
  sheltered : Sheltered base t
  proxies : s.world.proxies.size ≤ t.world.proxies.size
  schema : ∀ p : ProxyId, p.index < s.world.proxies.size →
    (t.world.proxy p).schema = (s.world.proxy p).schema
  fit : ∀ q, Fit base s q → Fit base t q

theorem sheltered_start (h : s.world.Orderly) : Sheltered s.world s where
  orderly := h
  proxies := Nat.le_refl _
  truthful := ⟨fun _ hq hlt => absurd hlt (Nat.not_lt.mpr hq),
    fun _ hq hlt => absurd hlt (Nat.not_lt.mpr hq), fun _ hq hlt => absurd hlt (Nat.not_lt.mpr hq)⟩

theorem Sheltered.onward (hs : Sheltered base s) : Onward base s s :=
  ⟨hs, Nat.le_refl _, fun _ _ => rfl, fun _ h => h⟩

theorem Onward.self (h : Onward base s t) : Onward base t t := h.sheltered.onward

theorem Onward.trans (hst : Onward base s t) (htu : Onward base t u) : Onward base s u where
  sheltered := htu.sheltered
  proxies := Nat.le_trans hst.proxies htu.proxies
  schema p hp := (htu.schema p (Nat.lt_of_lt_of_le hp hst.proxies)).trans (hst.schema p hp)
  fit q hq := htu.fit q (hst.fit q hq)

theorem Sheltered.of_extends {w : World} (hs : Sheltered base s) (h : s.world.Extends w)
    (hw : w.Truthful s.session.registry fun q => base.proxies.size ≤ q.index) :
    Onward base s { s with world := w } where
  sheltered := by
    have hregistry : w.registry = s.world.registry := by
      unfold World.registry
      rw [h.registries]
    have hobject : w.object = s.world.object := by
      unfold World.object
      rw [h.objects]
    refine ⟨⟨fun r => hregistry ▸ hs.orderly.registries r, fun p hp => ?_,
      fun o => hobject ▸ hs.orderly.objects o⟩, Nat.le_trans hs.proxies h.size_le, hw⟩
    by_cases hold : p.index < s.world.proxies.size
    · rw [hregistry, h.registry p hold, h.record p hold, h.schema p hold]
      exact hs.orderly.proxies p hold
    · have hnew := Nat.le_trans hs.proxies (Nat.le_of_not_lt hold)
      rw [hw.registry p hnew hp]
      exact Registry.schema_eq_ok.mp (hw.schema p hnew hp)
  proxies := h.size_le
  schema := h.schema
  fit q hq := by
    have hobject : w.object = s.world.object := by
      unfold World.object
      rw [h.objects]
    refine ⟨hq.viewed, Nat.lt_of_lt_of_le hq.proxy h.size_le, h.objects ▸ hq.object, ?_⟩
    rw [hobject, h.schema q.proxy hq.proxy]
    exact hq.schema

theorem Sheltered.load (hs : Sheltered base s) {o : ObjectId} {name : String} {f : Field}
    (hname : (s.world.object o).schema.hasField name = true) : Onward base s (s.load o name f) where
  sheltered := ⟨hs.orderly.changeObject ((hs.orderly.objects o).load fun _ => hname), hs.proxies,
    hs.truthful.of_eq rfl rfl rfl⟩
  proxies := Nat.le_refl _
  schema _ _ := rfl
  fit q hq := by
    refine ⟨hq.viewed, hq.proxy, by simpa [Workspace.load, World.changeObject] using hq.object, ?_⟩
    rw [object_load]
    split
    · rename_i h
      rw [← h.1]
      exact hq.schema
    · exact hq.schema

theorem Sheltered.make (hs : Sheltered base s) (type : ClassType) (id : String) :
    Onward base s (s.make type id) where
  sheltered := ⟨hs.orderly.pushObject type id, hs.proxies, hs.truthful.of_eq rfl rfl rfl⟩
  proxies := Nat.le_refl _
  schema _ _ := rfl
  fit q hq := by
    refine ⟨hq.viewed, hq.proxy, by rw [size_make]; exact Nat.lt_succ_of_lt hq.object, ?_⟩
    rw [object_make_of_lt hq.object]
    exact hq.schema

/-- The object of a record is of a type with the schema that the proxy of the record has. -/
theorem yields_objectOf (hs : Sheltered base s) (hp : base.proxies.size ≤ p.index)
    (hlt : p.index < s.world.proxies.size) :
    Yields (Onward base) (fun x t => x.2 = true → Fit base t ⟨p, x.1⟩) (objectOf p) s := by
  refine .congr (bind_of_ok (get_apply s)) ?_
  cases s.cached? (s.world.recordOf p).className (s.world.recordOf p).id with
  | some o =>
    refine .of_eq (pure_apply _ s) hs.onward fun x hx hnew => ?_
    cases hx
    cases hnew
  | none =>
    cases htype : s.registry.types.get? (s.world.recordOf p).className with
    | none =>
      obtain ⟨e, hrun⟩ := instantiate_of_none htype
      exact .of_eq (bind_of_error hrun) hs.onward fun _ h => by cases h
    | some type =>
      refine .of_eq (bind_of_ok (instantiate_of_type htype)) (hs.make type _) fun x hx _ => ?_
      cases hx
      refine ⟨hp, hlt, by rw [size_make]; exact Nat.lt_succ_self _, ?_⟩
      rw [object_make_new]
      -- both are the schema that the registry has for the class of the record
      have hproxy := Registry.schema_eq_ok.mp (hs.truthful.schema p hp hlt)
      have htyped := ((hs.orderly.registries s.session.registry).consistent _ _ htype).2
      exact Option.some.inj (htyped.symm.trans hproxy)

theorem onward_loadAttribute (hs : Sheltered base s) (hnext : Fit base s next) (name : String) :
    Onward base s (loadAttribute next name s).2 := by
  rw [loadAttribute, bind_apply, act_apply]
  cases hattribute : (s.world.proxy next.proxy).schema.attribute? name with
  | none =>
    rw [ProxyId.getAttribute_of_unknown hattribute]
    exact hs.onward
  | some a =>
    rw [ProxyId.getAttribute_apply hattribute]
    cases s.world.store.read (s.world.recordOf next.proxy) name a.getter with
    | error e => exact hs.onward
    | ok v => exact hs.load (hnext.schema ▸ ClassSchema.hasField_of_attribute hattribute)

theorem yields_loadRelation (hs : Sheltered base s) (hnext : Fit base s next) (r : Relation) :
    Yields (Onward base) (fun found t => ∀ q ∈ found, Fit base t q) (loadRelation next r) s := by
  unfold loadRelation
  cases hrelation : (s.world.proxy next.proxy).schema.relation? r.name with
  | none =>
    have hfail := act_of_run (ProxyId.getRelation_of_unknown hrelation)
    exact .of_eq (bind_of_error hfail) hs.onward fun _ h => by cases h
  | some declared =>
    obtain ⟨related, w, hrun, hextends, htruthful, hresolves⟩ :=
      ProxyId.getRelation_run (fun _ hq => Nat.le_trans hs.proxies hq) hs.truthful hnext.viewed
        hnext.proxy hrelation
    have hread : Onward base s { s with world := w } := hs.of_extends hextends htruthful
    have hrelated : Yields (Onward base) (fun x t => related = x ∧ Onward base { s with world := w } t)
        (act (next.proxy.getRelation r.name)) s :=
      .of_eq (act_of_run hrun) hread fun x hx => ⟨Except.ok.inj hx, hread.self⟩
    refine hrelated.bind .trans ?_
    rintro _ t - hst ⟨rfl, ht⟩
    have hobjects : Yields (Onward base)
        (fun xs t => ∀ x ∈ xs, x.2.2 = true → Fit base t ⟨x.1, x.2.1⟩)
        (related.targets.mapM fun p => do pure (p, ← objectOf p)) t := by
      refine .mapM .trans (fun hq htu hnew => htu.fit _ (hq hnew)) .self hst.self
        fun q hq u htu => ?_
      obtain ⟨hviewed, hlt⟩ := hresolves.viewed q hq
      refine (yields_objectOf htu.sheltered hviewed
        (Nat.lt_of_lt_of_le hlt (ht.trans htu).proxies)).bind .trans fun x v _ huv hx => ?_
      exact .of_eq (pure_apply _ v) huv.self fun y hy => by cases hy; exact hx
    refine hobjects.bind .trans fun found u _ htu hfound => ?_
    have hfit := (hst.trans htu).fit next hnext
    have hname : (u.world.object next.object).schema.hasField r.name = true := by
      rw [hfit.schema, (hst.trans htu).schema _ hnext.proxy]
      exact ClassSchema.hasField_of_relation hrelation
    have hload : Onward base u (u.load next.object r.name
        (if r.multivalue then .objects (found.map fun x => x.2.1)
          else .ofTarget? (found.map fun x => x.2.1).getLast?)) := htu.sheltered.load hname
    refine .of_eq rfl hload fun qs hqs q hq => ?_
    cases hqs
    obtain ⟨⟨p, o, new⟩, hx, hsome⟩ := List.mem_filterMap.mp hq
    obtain ⟨hnew, hpair⟩ := Option.ite_none_right_eq_some.mp hsome
    cases hpair
    exact hload.fit _ (hfound _ hx hnew)

theorem yields_loadFields (hs : Sheltered base s) (hnext : Fit base s next) :
    Yields (Onward base) (fun found t => ∀ q ∈ found, Fit base t q) (loadFields next) s := by
  refine .congr (bind_of_ok (get_apply s)) ?_
  have hattributes : Preserves (Onward base s)
      ((s.world.proxy next.proxy).schema.attributes.keys.forM (loadAttribute next)) :=
    .forM fun name _ t ht => ht.trans (onward_loadAttribute ht.sheltered (ht.fit _ hnext) name)
  refine Yields.bind .trans (Q := fun _ t => Onward base s t)
    ⟨hattributes s hs.onward, fun _ t hrun => hattributes.run hs.onward hrun⟩ fun _ t _ hst _ => ?_
  have hrelations : Yields (Onward base) (fun lists u => ∀ list ∈ lists, ∀ q ∈ list, Fit base u q)
      ((s.world.proxy next.proxy).schema.relations.values.mapM (loadRelation next)) t :=
    .mapM .trans (fun hfound hst q hq => hst.fit q (hfound q hq)) .self hst.self
      fun r _ u htu => yields_loadRelation htu.sheltered ((hst.trans htu).fit _ hnext) r
  refine hrelations.bind .trans fun lists u _ htu hlists => ?_
  refine .of_eq (pure_apply _ u) htu.self fun found hfound q hq => ?_
  cases hfound
  obtain ⟨list, hlist, hmem⟩ := List.mem_flatten.mp hq
  exact hlists list hlist q hmem

theorem onward_loadPending (steps : Nat) {pending : List Pending} (hs : Sheltered base s)
    (hpending : ∀ q ∈ pending, Fit base s q) : Onward base s (loadPending steps pending s).2 := by
  induction steps generalizing s pending with
  | zero => exact hs.onward
  | succ steps ih =>
    cases pending with
    | nil => exact hs.onward
    | cons next pending =>
      refine ((yields_loadFields hs (hpending next List.mem_cons_self)).bind .trans
        (T := fun _ _ => True) fun found t _ hst hfound => ⟨ih hst.sheltered fun q hq => ?_, ?_⟩).after
      · rcases List.mem_append.mp hq with hq | hq
        · exact hfound q (List.mem_reverse.mp hq)
        · exact hst.fit q (hpending q (List.mem_cons_of_mem next hq))
      · exact fun _ _ _ => trivial

theorem onward_hydrate (hs : Sheltered base s) (hp : base.proxies.size ≤ p.index)
    (hlt : p.index < s.world.proxies.size) : Onward base s (hydrate p s).2 := by
  refine ((yields_objectOf hs hp hlt).bind .trans (T := fun _ _ => True) ?_).after
  rintro ⟨o, new⟩ t - hst hnew
  refine ⟨?_, fun _ _ _ => trivial⟩
  cases new with
  | false => exact hst.self
  | true =>
    have hload : Onward base t (loadPending (t.world.store.recordCount + 1) [⟨p, o⟩] t).2 :=
      onward_loadPending _ hst.sheltered (by simpa using hnew rfl)
    change Onward base t ((loadPending (t.world.store.recordCount + 1) [⟨p, o⟩] >>=
      fun _ => pure o : SessionM ObjectId) t).2
    rwa [state_bind_of_reads fun _ _ => rfl]

/-! ### Calls for objects -/

theorem yields_proxyFor (hs : Sheltered base s) (r : RecordRef) :
    Yields (Onward base) (fun p t => base.proxies.size ≤ p.index ∧ p.index < t.world.proxies.size)
      (proxyFor r) s := by
  cases hschema : s.registry.schema r.className with
  | error e =>
    refine .of_eq (x := .error e) ?_ hs.onward fun _ h => by cases h
    rw [proxyFor, bind_of_ok (get_apply s)]
    exact act_of_run (Action.newProxy_of_error hschema)
  | ok schema =>
    refine .of_eq (proxyFor_of_ok hschema)
      (hs.of_extends (World.extends_pushProxy ..) (hs.truthful.pushProxy hschema)) fun p hp => ?_
    cases hp
    exact ⟨hs.proxies, by simp [World.pushProxy]⟩

theorem onward_getObject (hs : Sheltered base s) (className id : String) :
    Onward base s (getObject className id s).2 := by
  rw [getObject, bind_of_ok (get_apply s)]
  cases s.cached? className id with
  | some o => exact hs.onward
  | none =>
    have hrecord : Yields (Onward base)
        (fun p t => base.proxies.size ≤ p.index ∧ p.index < t.world.proxies.size)
        (record className id) s := by
      rw [record]
      cases hfind : s.world.store.getRecord className id with
      | error e =>
        refine .of_eq (bind_of_error (e := e) ?_) hs.onward fun _ h => by cases h
        rw [askStore_apply, hfind]
      | ok r =>
        refine .congr (bind_of_ok (a := r) (t := s) ?_) (yields_proxyFor hs r)
        rw [askStore_apply, hfind]
    exact (hrecord.bind .trans (T := fun _ _ => True) fun p t _ hst hp =>
      ⟨onward_hydrate hst.sheltered hp.1 hp.2, fun _ _ _ => trivial⟩).after

theorem onward_getAll (hs : Sheltered base s) (className : String) :
    Onward base s (getAll className s).2 := by
  have hrecords : Yields (Onward base)
      (fun ps t => ∀ p ∈ ps, base.proxies.size ≤ p.index ∧ p.index < t.world.proxies.size)
      (records className) s := by
    rw [records]
    cases hfind : s.world.store.records className with
    | error e =>
      refine .of_eq (bind_of_error (e := e) ?_) hs.onward fun _ h => by cases h
      rw [askStore_apply, hfind]
    | ok rs =>
      refine .congr (bind_of_ok (a := rs) (t := s) ?_) (.mapM .trans ?_ .self hs.onward ?_)
      · rw [askStore_apply, hfind]
      · exact fun hp hst => ⟨hp.1, Nat.lt_of_lt_of_le hp.2 hst.proxies⟩
      · exact fun r _ t hst => yields_proxyFor hst.sheltered r
  refine (hrecords.bind .trans (T := fun _ _ => True) fun ps t _ hst hps =>
    ⟨?_, fun _ _ _ => trivial⟩).after
  have hall : Preserves (Onward base t) (ps.mapM hydrate) := .mapM fun p hp u htu =>
    htu.trans (onward_hydrate htu.sheltered (hps p hp).1 (Nat.lt_of_lt_of_le (hps p hp).2 htu.proxies))
  exact hall t hst.self

theorem onward_materializeAll (hs : Sheltered base s) : Onward base s (materializeAll s).2 := by
  have hclass (found : OrderedMap String ObjectId) (className : String) :
      Preserves (Onward base s) (materializeClass found className) := by
    intro t ht
    rw [materializeClass, state_bind_of_reads]
    · exact ht.trans (onward_getAll ht.sheltered className)
    · exact fun _ => reads_get.bind fun _ _ => rfl
  rw [materializeAll_apply]
  exact Preserves.foldlM (fun found className _ => hclass found className) _ s hs.onward

/-- What a session is asked for leaves its world orderly. -/
theorem orderly_answer (h : s.world.Orderly) (c : Call) : (c.run s).2.world.Orderly := by
  have hs := sheltered_start h
  cases c with
  | get className id =>
    rw [Call.run, state_bind_of_reads fun _ _ => rfl]
    exact (onward_getObject hs className id).sheltered.orderly
  | getAll className => exact (onward_getAll hs className).sheltered.orderly
  | materializeAll => exact (onward_materializeAll hs).sheltered.orderly

end Session

/-! ### Runs -/

/-- Whatever is done but calls on objects, an orderly world stays so. -/
theorem World.frame_orderly : World.Frame fun v w => v.Orderly → w.Orderly where
  refl _ h := h
  trans huv hvw h := hvw (huv h)
  outside hregistries hobjects hproxies h := h.of_eq hregistries hobjects hproxies
  newProxy _ r record h := h.newProxy r record
  changeProxy _ p _ hf h := h.changeProxy p hf
  newObject _ type id h := h.pushObject type id
  read _ o name h := h.get o name
  clearTouched _ o h := h.changeObject (f := fun object => { object with touched := [] }) (h.objects o)
  clearRename _ o h := h.changeObject (f := fun object => { object with oldId := none }) (h.objects o)
  answer _ c h := Session.orderly_answer h c
  newRegistry _ h := h.addRegistry
  refresh _ r h := h.refresh r
  derive _ _ classNames h := h.onRegistry fun schemas => Registry.preserves_orderly_derive schemas classNames

/-- Whatever happens, the world is orderly. -/
theorem System.Arises.orderly {y : System} (h : y.Arises) : y.world.Orderly := by
  induction h with
  | start =>
    refine ⟨fun r => ?_, fun _ hp => absurd hp (Nat.not_lt_zero _), fun o => ?_⟩
    · rw [World.registry_of_missing (Nat.not_lt_zero _)]
      exact Registry.orderly_empty
    · rw [World.object_of_missing (Nat.not_lt_zero _)]
      exact Object.declared_new default ""
  | @step y _ event _ ih =>
    by_cases hevent : ∃ r call, event = .object r call
    · obtain ⟨r, call, rfl⟩ := hevent
      exact ih.call r call
    · exact World.frame_orderly.run y event (fun r call heq => hevent ⟨r, call, heq⟩) ih
  | @refreshSchemas y _ r ih =>
    dsimp only
    exact ih.refreshSchemas r
  | @register y _ r className bases ih =>
    dsimp only
    exact ih.onRegistry fun schemas => Registry.preserves_orderly_register schemas className bases

end RecordGraph
