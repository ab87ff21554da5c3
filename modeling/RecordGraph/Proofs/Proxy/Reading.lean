import RecordGraph.Proofs.Proxy.Resolution

/-!
Reading through proxies.  Reading a relation of a known name never fails: it gives what the store
resolves the relation to, or nothing where it does not resolve, and leaves a truthful world truthful.
-/

namespace RecordGraph

open RecordGraph.Computation

/-! ### Making proxies -/

namespace World

variable {v w : World} {reg : RegistryId} {views : ProxyId → Prop}

/-- The world with one more proxy. -/
def pushProxy (w : World) (p : Proxy) : World := { w with proxies := w.proxies.push p }

theorem proxy_pushProxy (w : World) (p : Proxy) (q : ProxyId) :
    (w.pushProxy p).proxy q = if q.index = w.proxies.size then p else w.proxy q :=
  Arena.read_push w.proxies p q.index

theorem proxy_pushProxy_of_lt (w : World) (p : Proxy) {q : ProxyId}
    (hq : q.index < w.proxies.size) : (w.pushProxy p).proxy q = w.proxy q := by
  rw [proxy_pushProxy, if_neg (Nat.ne_of_lt hq)]

theorem extends_pushProxy (w : World) (p : Proxy) : w.Extends (w.pushProxy p) where
  store := rfl
  registries := rfl
  objects := rfl
  size_le := by simp [pushProxy]
  record q hq := by unfold recordOf; rw [proxy_pushProxy_of_lt w p hq]
  schema q hq := by rw [proxy_pushProxy_of_lt w p hq]
  registry q hq := by rw [proxy_pushProxy_of_lt w p hq]

theorem hasSchema_eq_true_iff {className : String} :
    w.hasSchema reg className = true ↔ ∃ s, (w.registry reg).schema className = .ok s := by
  unfold hasSchema Registry.schema
  rw [← OrderedMap.get?_isSome]
  cases (w.registry reg).schemas.get? className <;> simp

/-- A new proxy has fetched nothing, and so tells nothing wrong. -/
theorem Truthful.pushProxy {record : RecordRef} {schema : ClassSchema}
    (hw : w.Truthful reg views) (hschema : (w.registry reg).schema record.className = .ok schema) :
    (w.pushProxy { record, schema, registry := reg }).Truthful reg views := by
  have hext := extends_pushProxy w { record, schema, registry := reg }
  have hsize : (w.pushProxy { record, schema, registry := reg }).proxies.size
      = w.proxies.size + 1 := by simp [World.pushProxy]
  refine ⟨?_, ?_, ?_⟩
  · intro q hq hlt
    rw [proxy_pushProxy]
    split
    · rfl
    · rename_i hne
      exact hw.registry q hq (by omega)
  · intro q hq hlt
    unfold recordOf
    rw [proxy_pushProxy, hext.registry_eq]
    split
    · exact hschema
    · rename_i hne
      exact hw.schema q hq (by omega)
  · intro q hq hlt name r related hname hrelated
    rw [proxy_pushProxy] at hname hrelated
    split at hrelated
    · simp at hrelated
    · rename_i hne
      rw [if_neg hne] at hname
      have hold : q.index < w.proxies.size := by omega
      exact (hw.kept q hq hold name r related hname hrelated).extends hext hold

end World

namespace Action

theorem ask_apply {α : Type} (f : World → Except Error α) (w : World) :
    Action.ask f w = (f w, w) := by
  rw [Action.ask, bind_of_ok (get_apply w), ofExcept_apply]

theorem reads_ask {α : Type} (f : World → Except Error α) : Reads (Action.ask f) := by
  intro w
  rw [Action.ask_apply]

theorem newProxy_of_ok {w : World} {reg : RegistryId} {record : RecordRef} {schema : ClassSchema}
    (h : (w.registry reg).schema record.className = .ok schema) :
    Action.newProxy reg record w
      = (.ok ⟨w.proxies.size⟩, w.pushProxy { record, schema, registry := reg }) := by
  have hask := ask_apply (fun w => (w.registry reg).schema record.className) w
  rw [h] at hask
  rw [Action.newProxy, bind_of_ok hask]
  rfl

theorem newProxy_of_error {w : World} {reg : RegistryId} {record : RecordRef} {e : Error}
    (h : (w.registry reg).schema record.className = .error e) :
    Action.newProxy reg record w = (.error e, w) := by
  have hask := ask_apply (fun w => (w.registry reg).schema record.className) w
  rw [h] at hask
  rw [Action.newProxy, bind_of_error hask]

end Action

namespace ProxyId

variable {w : World} {reg : RegistryId} {views : ProxyId → Prop} {p : ProxyId}

/-! ### Fetching -/

/-- Fetching does nothing but make proxies. -/
theorem preserves_fetch {P : World → Prop}
    (hnew : ∀ reg record, Preserves P (Action.newProxy reg record)) (p : ProxyId) (r : Relation) :
    Preserves P (p.fetch r) := by
  have htarget (v : Value) : Preserves P (p.target r.name v) := by
    cases v with
    | record t => exact reads_get.preserves.bind fun _ => hnew _ t
    | _ => exact (reads_throw _).preserves
  refine (Action.reads_ask _).preserves.bind fun v => ?_
  split
  · exact preserves_pure _
  · exact (Preserves.mapM fun v _ => htarget v).bind fun _ => preserves_pure _
  · exact (htarget _).bind fun _ => preserves_pure _
  · exact (reads_throw _).preserves

/-- What making the proxies for some values ends with: proxies for the records that they point to, or
a failure. -/
structure Fetched (w : World) (reg : RegistryId) (views : ProxyId → Prop)
    (expected : Option (List RecordRef)) (result : Except Error (List ProxyId)) (w' : World) :
    Prop where
  «extends» : w.Extends w'
  truthful : w'.Truthful reg views
  found : ∀ ts, expected = some ts → ∃ qs, result = .ok qs ∧ qs.map w'.recordOf = ts
    ∧ ∀ q ∈ qs, views q ∧ q.index < w'.proxies.size
  failed : expected = none → ∃ e, result = .error e

theorem target_of_some (hp : (w.proxy p).registry = reg) (relation : String) {v : Value}
    {t : RecordRef} (hv : v.reference? (w.hasSchema reg) = some t) :
    ∃ schema, (w.registry reg).schema t.className = .ok schema ∧
      p.target relation v w
        = (.ok ⟨w.proxies.size⟩, w.pushProxy { record := t, schema, registry := reg }) := by
  obtain ⟨rfl, hknown⟩ := Value.reference?_eq_some.mp hv
  obtain ⟨schema, hschema⟩ := World.hasSchema_eq_true_iff.mp hknown
  refine ⟨schema, hschema, ?_⟩
  rw [target, bind_apply, get_apply]
  simp only [hp]
  exact Action.newProxy_of_ok hschema

theorem target_of_none (hp : (w.proxy p).registry = reg) (relation : String) {v : Value}
    (hv : v.reference? (w.hasSchema reg) = none) : ∃ e, p.target relation v w = (.error e, w) := by
  cases v with
  | record t =>
    cases hschema : (w.registry reg).schema t.className with
    | ok schema =>
      have hknown := World.hasSchema_eq_true_iff.mpr ⟨schema, hschema⟩
      simp [Value.reference?, hknown] at hv
    | error e =>
      refine ⟨e, ?_⟩
      rw [target, bind_apply, get_apply]
      simp only [hp]
      exact Action.newProxy_of_error hschema
  | _ => exact ⟨_, rfl⟩

/-- Making proxies for values one after the other. -/
theorem mapM_target (hviews : ∀ q : ProxyId, w.proxies.size ≤ q.index → views q)
    (hw : w.Truthful reg views) (hp : (w.proxy p).registry = reg) (hlt : p.index < w.proxies.size)
    (relation : String) (items : List Value) :
    Fetched w reg views (items.mapM (Value.reference? (w.hasSchema reg)))
      (items.mapM (p.target relation) w).1 (items.mapM (p.target relation) w).2 := by
  induction items generalizing w with
  | nil =>
    refine ⟨.refl w, hw, ?_, by simp⟩
    intro ts hts
    exact ⟨[], rfl, by simpa using hts, by simp⟩
  | cons v vs ih =>
    rw [List.mapM_cons, List.mapM_cons]
    cases hv : v.reference? (w.hasSchema reg) with
    | none =>
      obtain ⟨e, hrun⟩ := target_of_none hp relation hv
      rw [bind_of_error hrun]
      exact ⟨.refl w, hw, by simp, fun _ => ⟨e, rfl⟩⟩
    | some t =>
      obtain ⟨schema, hschema, hrun⟩ := target_of_some hp relation hv
      rw [bind_of_ok hrun]
      have hext := World.extends_pushProxy w { record := t, schema, registry := reg }
      have hrest := ih (w := w.pushProxy { record := t, schema, registry := reg })
        (fun q hq => hviews q (Nat.le_trans hext.size_le hq)) (hw.pushProxy hschema)
        (by rw [World.proxy_pushProxy_of_lt w _ hlt]; exact hp)
        (Nat.lt_of_lt_of_le hlt hext.size_le)
      rw [hext.hasSchema_eq] at hrest
      cases hvs : vs.mapM (p.target relation)
        (w.pushProxy { record := t, schema, registry := reg }) with
      | mk result w' =>
        rw [hvs] at hrest
        dsimp only at hrest
        cases htail : vs.mapM (Value.reference? (w.hasSchema reg)) with
        | none =>
          obtain ⟨e, rfl⟩ := hrest.failed htail
          rw [bind_of_error hvs]
          exact ⟨hext.trans hrest.extends, hrest.truthful, by simp, fun _ => ⟨e, rfl⟩⟩
        | some ts =>
          obtain ⟨qs, rfl, hrecords, hviewed⟩ := hrest.found ts htail
          rw [bind_of_ok hvs]
          have hnew : w.proxies.size
              < (w.pushProxy { record := t, schema, registry := reg }).proxies.size := by
            simp [World.pushProxy]
          refine ⟨hext.trans hrest.extends, hrest.truthful, ?_, by simp⟩
          intro ts' hts'
          simp only [Option.pure_def, Option.bind_eq_bind, Option.bind_some, Option.some.injEq]
            at hts'
          subst hts'
          refine ⟨⟨w.proxies.size⟩ :: qs, rfl, ?_, ?_⟩
          · have hfirst := hrest.extends.record ⟨w.proxies.size⟩ hnew
            change w'.recordOf ⟨w.proxies.size⟩ :: qs.map w'.recordOf = t :: ts
            rw [hrecords, hfirst]
            simp [World.recordOf, World.proxy_pushProxy]
          · intro q hq
            rcases List.mem_cons.mp hq with rfl | hq
            · exact ⟨hviews _ (Nat.le_refl _), Nat.lt_of_lt_of_le hnew hrest.extends.size_le⟩
            · exact hviewed q hq

/-- What fetching a relation ends with: what the store resolves it to, or a failure where it does not
resolve. -/
def Fetches (w : World) (reg : RegistryId) (views : ProxyId → Prop) (p : ProxyId) (r : Relation)
    (m : Action Related) : Prop :=
  ∃ w', w.Extends w' ∧ w'.Truthful reg views ∧
    ((∃ related, m w = (.ok related, w') ∧ w'.Resolves reg views p r related) ∨
      ∃ e, m w = (.error e, w') ∧ w.store.resolve (w.hasSchema reg) (w.recordOf p) r = none)

variable {r : Relation}

theorem fetches_of_unresolved {e : Error} (hw : w.Truthful reg views)
    (hresolve : w.store.resolve (w.hasSchema reg) (w.recordOf p) r = none) :
    Fetches w reg views p r (throw e) :=
  ⟨w, .refl w, hw, Or.inr ⟨e, rfl, hresolve⟩⟩

theorem fetches_null (hw : w.Truthful reg views)
    (hread : w.store.read (w.recordOf p) r.name r.accessor = .ok .null) :
    Fetches w reg views p r (pure (.empty r.multivalue)) := by
  refine ⟨w, .refl w, hw, Or.inl ⟨.empty r.multivalue, rfl, ?_, ?_, ?_⟩⟩ <;>
    cases r.multivalue <;>
    simp [Related.empty, Related.isMany, Related.targets, Store.resolve, hread]

theorem fetches_list (hviews : ∀ q : ProxyId, w.proxies.size ≤ q.index → views q)
    (hw : w.Truthful reg views) (hp : (w.proxy p).registry = reg) (hlt : p.index < w.proxies.size)
    {items : List Value} (hread : w.store.read (w.recordOf p) r.name r.accessor = .ok (.list items))
    (hmulti : r.multivalue = true) :
    Fetches w reg views p r (items.mapM (p.target r.name) >>= fun qs => pure (.many qs)) := by
  have hresolve : w.store.resolve (w.hasSchema reg) (w.recordOf p) r
      = items.mapM (Value.reference? (w.hasSchema reg)) := by
    simp [Store.resolve, hread, hmulti]
  have hfetched := mapM_target hviews hw hp hlt r.name items
  cases hrun : items.mapM (p.target r.name) w with
  | mk result w' =>
    rw [hrun] at hfetched
    dsimp only at hfetched
    cases hexpected : items.mapM (Value.reference? (w.hasSchema reg)) with
    | none =>
      obtain ⟨e, rfl⟩ := hfetched.failed hexpected
      exact ⟨w', hfetched.extends, hfetched.truthful,
        Or.inr ⟨e, bind_of_error hrun, hresolve.trans hexpected⟩⟩
    | some ts =>
      obtain ⟨qs, rfl, hrecords, hviewed⟩ := hfetched.found ts hexpected
      refine ⟨w', hfetched.extends, hfetched.truthful,
        Or.inl ⟨.many qs, bind_of_ok hrun, by rw [hmulti]; rfl, ?_, hviewed⟩⟩
      rw [hfetched.extends.store, hfetched.extends.hasSchema_eq, hfetched.extends.record p hlt,
        hresolve, hexpected]
      exact hrecords

theorem fetches_record (hviews : ∀ q : ProxyId, w.proxies.size ≤ q.index → views q)
    (hw : w.Truthful reg views) (hp : (w.proxy p).registry = reg) (hlt : p.index < w.proxies.size)
    {t : RecordRef} (hread : w.store.read (w.recordOf p) r.name r.accessor = .ok (.record t))
    (hmulti : r.multivalue = false) :
    Fetches w reg views p r (p.target r.name (.record t) >>= fun q => pure (.one (some q))) := by
  have hresolve : w.store.resolve (w.hasSchema reg) (w.recordOf p) r
      = ((Value.record t).reference? (w.hasSchema reg)).map fun t => [t] := by
    simp [Store.resolve, hread, hmulti]
  cases hknown : (Value.record t).reference? (w.hasSchema reg) with
  | none =>
    obtain ⟨e, hrun⟩ := target_of_none hp r.name hknown
    refine ⟨w, .refl w, hw, Or.inr ⟨e, bind_of_error hrun, ?_⟩⟩
    rw [hresolve, hknown]
    rfl
  | some u =>
    obtain ⟨schema, hschema, hrun⟩ := target_of_some hp r.name hknown
    have hext := World.extends_pushProxy w { record := u, schema, registry := reg }
    refine ⟨_, hext, hw.pushProxy hschema,
      Or.inl ⟨.one (some ⟨w.proxies.size⟩), bind_of_ok hrun, by rw [hmulti]; rfl, ?_, ?_⟩⟩
    · rw [hext.store, hext.hasSchema_eq, hext.record p hlt, hresolve, hknown]
      simp [Related.targets, World.recordOf, World.proxy_pushProxy]
    · intro q hq
      obtain rfl : q = ⟨w.proxies.size⟩ := by simpa [Related.targets] using hq
      exact ⟨hviews _ (Nat.le_refl _), by simp [World.pushProxy]⟩

/-- Fetching a relation gives what the store resolves it to, and fails where it does not resolve. -/
theorem fetch_run (hviews : ∀ q : ProxyId, w.proxies.size ≤ q.index → views q)
    (hw : w.Truthful reg views) (hp : (w.proxy p).registry = reg) (hlt : p.index < w.proxies.size)
    (r : Relation) : Fetches w reg views p r (p.fetch r) := by
  have hask := Action.ask_apply (fun w => w.store.read (w.recordOf p) r.name r.accessor) w
  unfold Fetches
  -- The same case distinction decides how a value is fetched and how it resolves.
  cases hread : w.store.read (w.recordOf p) r.name r.accessor with
  | error e =>
    rw [hread] at hask
    rw [fetch, bind_of_error hask]
    exact fetches_of_unresolved (e := e) hw (by simp [Store.resolve, hread])
  | ok v =>
    rw [hread] at hask
    rw [fetch, bind_of_ok hask]
    cases v with
    | null => exact fetches_null hw hread
    | list items =>
      cases hmulti : r.multivalue with
      | false => exact fetches_of_unresolved hw (by simp [Store.resolve, hread, hmulti])
      | true => exact fetches_list hviews hw hp hlt hread hmulti
    | record t =>
      cases hmulti : r.multivalue with
      | true => exact fetches_of_unresolved hw (by simp [Store.resolve, hread, hmulti])
      | false => exact fetches_record hviews hw hp hlt hread hmulti
    | _ =>
      cases r.multivalue <;> exact fetches_of_unresolved hw (by simp [Store.resolve, hread])

end ProxyId

/-! ### Relations -/

namespace World

variable {v w : World} {reg : RegistryId} {views : ProxyId → Prop} {p : ProxyId}

theorem extends_changeProxy (w : World) (p : ProxyId) {f : Proxy → Proxy}
    (hrecord : ∀ x, (f x).record = x.record) (hschema : ∀ x, (f x).schema = x.schema)
    (hregistry : ∀ x, (f x).registry = x.registry) : w.Extends (w.changeProxy p f) where
  store := rfl
  registries := rfl
  objects := rfl
  size_le := by simp [changeProxy]
  record q _ := by
    unfold recordOf
    rw [proxy_changeProxy]
    split
    · rename_i h
      rw [h.1, hrecord]
    · rfl
  schema q _ := by
    rw [proxy_changeProxy]
    split
    · rename_i h
      rw [h.1, hschema]
    · rfl
  registry q _ := by
    rw [proxy_changeProxy]
    split
    · rename_i h
      rw [h.1, hregistry]
    · rfl

/-- A world stays truthful if every relation that a proxy has come to keep is told as the store
does. -/
theorem Truthful.of_extends (hv : v.Truthful reg views) (hvw : v.Extends w)
    (hsize : w.proxies.size = v.proxies.size)
    (hkept : ∀ q, views q → q.index < v.proxies.size → ∀ name r related,
      (w.proxy q).schema.relation? name = some r → (w.proxy q).relations.get? name = some related →
        (v.proxy q).relations.get? name = some related ∨ w.Resolves reg views q r related) :
    w.Truthful reg views := by
  refine ⟨?_, ?_, ?_⟩
  · intro q hq hlt
    rw [hsize] at hlt
    rw [hvw.registry q hlt]
    exact hv.registry q hq hlt
  · intro q hq hlt
    rw [hsize] at hlt
    rw [hvw.registry_eq, hvw.record q hlt, hvw.schema q hlt]
    exact hv.schema q hq hlt
  · intro q hq hlt name r related hname hrelated
    rw [hsize] at hlt
    rcases hkept q hq hlt name r related hname hrelated with hold | hnew
    · rw [hvw.schema q hlt] at hname
      exact (hv.kept q hq hlt name r related hname hold).extends hvw hlt
    · exact hnew

theorem extends_warn (w : World) (ws : List Warning) : w.Extends (w.warn ws) :=
  ⟨rfl, rfl, rfl, Nat.le_refl _, fun _ _ => rfl, fun _ _ => rfl, fun _ _ => rfl⟩

/-- Keeping what a relation resolves to keeps a world truthful. -/
theorem Truthful.cache (hw : w.Truthful reg views) (hp : p.index < w.proxies.size) {name : String}
    {r : Relation} {related : Related} (hname : (w.proxy p).schema.relation? name = some r)
    (hrelated : w.Resolves reg views p r related) :
    (w.changeProxy p fun proxy => proxy.cache name related).Truthful reg views := by
  have hext := extends_changeProxy w p (f := fun proxy => proxy.cache name related)
    (fun _ => rfl) (fun _ => rfl) (fun _ => rfl)
  apply hw.of_extends hext (by simp [changeProxy])
  intro q _ hq name' r' related' hname' hrelated'
  rw [hext.schema q hq] at hname'
  rw [proxy_changeProxy] at hrelated'
  split at hrelated'
  · rename_i h
    obtain ⟨rfl, -⟩ := h
    simp only [Proxy.cache, OrderedMap.get?_insert] at hrelated'
    split at hrelated'
    · rename_i heq
      subst heq
      cases hrelated'
      cases hname.symm.trans hname'
      exact Or.inr (hrelated.extends hext hp)
    · exact Or.inl hrelated'
  · exact Or.inl hrelated'

end World

namespace ProxyId

variable {w : World} {reg : RegistryId} {views : ProxyId → Prop} {p : ProxyId} {name : String}

theorem relationSchema_apply {r : Relation} (hname : (w.proxy p).schema.relation? name = some r) :
    p.relationSchema name w = (.ok r, w) := by
  rw [relationSchema, Action.ask_apply, hname]

theorem getRelation_of_unknown (hname : (w.proxy p).schema.relation? name = none) :
    p.getRelation name w = (.error (.unknownField (w.proxy p).schema.name name), w) := by
  rw [getRelation]
  apply bind_of_error
  rw [relationSchema, Action.ask_apply, hname]

theorem getAttribute_of_unknown (hname : (w.proxy p).schema.attribute? name = none) :
    p.getAttribute name w = (.error (.unknownField (w.proxy p).schema.name name), w) := by
  rw [getAttribute]
  apply bind_of_error
  rw [attributeSchema, Action.ask_apply, hname]

theorem attributeSchema_apply {a : Attribute} (hname : (w.proxy p).schema.attribute? name = some a) :
    p.attributeSchema name w = (.ok a, w) := by
  rw [attributeSchema, Action.ask_apply, hname]

theorem reads_getAttribute (p : ProxyId) (name : String) : Reads (p.getAttribute name) :=
  (Action.reads_ask _).bind fun _ => Action.reads_ask _

/-- An attribute reads as the store has it. -/
theorem getAttribute_apply {a : Attribute} (hname : (w.proxy p).schema.attribute? name = some a) :
    p.getAttribute name w = (w.store.read (w.recordOf p) name a.getter, w) := by
  rw [getAttribute, bind_of_ok (attributeSchema_apply hname), Action.ask_apply]

theorem degrade_run (hw : w.Truthful reg views) (r : Relation) (cause : Error)
    (hresolve : w.store.resolve (w.hasSchema reg) (w.recordOf p) r = none)
    (hlt : p.index < w.proxies.size) :
    ∃ w', p.degrade r cause w = (.ok (.empty r.multivalue), w') ∧ w.Extends w'
      ∧ w'.Truthful reg views ∧ w'.Resolves reg views p r (.empty r.multivalue) := by
  have hchange := World.extends_changeProxy w p (f := fun proxy => proxy.degrade r.name)
    (fun _ => rfl) (fun _ => rfl) (fun _ => rfl)
  have hext := hchange.trans (World.extends_warn _
    [.relationDegraded (w.recordOf p).className (w.recordOf p).id r.name
      (cause.relationResolution r.name (w.recordOf p).fullName).message])
  refine ⟨_, rfl, hext, ?_, ?_⟩
  · apply hw.of_extends hext (by simp [World.changeProxy, World.warn])
    intro q _ hq name r' related _ hrelated
    change ((w.changeProxy p fun proxy => proxy.degrade r.name).proxy q).relations.get? name
      = some related at hrelated
    rw [World.proxy_changeProxy] at hrelated
    split at hrelated
    · rename_i h
      rw [h.1]
      exact Or.inl hrelated
    · exact Or.inl hrelated
  · refine ⟨?_, ?_, ?_⟩
    · cases r.multivalue <;> rfl
    · rw [hext.store, hext.hasSchema_eq, hext.record p hlt, hresolve]
      cases r.multivalue <;> rfl
    · cases r.multivalue <;> simp [Related.empty, Related.targets]

/-- Reading a relation gives what the store resolves it to. -/
theorem getRelation_run (hviews : ∀ q : ProxyId, w.proxies.size ≤ q.index → views q)
    (hw : w.Truthful reg views) (hp : views p) (hlt : p.index < w.proxies.size) {r : Relation}
    (hname : (w.proxy p).schema.relation? name = some r) :
    ∃ related w', p.getRelation name w = (.ok related, w') ∧ w.Extends w' ∧ w'.Truthful reg views
      ∧ w'.Resolves reg views p r related := by
  rw [getRelation, bind_of_ok (relationSchema_apply hname), bind_of_ok (get_apply w)]
  cases hkept : (w.proxy p).relations.get? name with
  | some related =>
    exact ⟨related, w, rfl, .refl w, hw, hw.kept p hp hlt name r related hname hkept⟩
  | none =>
    -- Whether fetching succeeds or degrades, what is kept then is what the relation resolves to.
    have hfetch : ∃ related w', (tryCatch (p.fetch r) (p.degrade r) : Action Related) w
        = (.ok related, w') ∧ w.Extends w' ∧ w'.Truthful reg views
        ∧ w'.Resolves reg views p r related := by
      obtain ⟨w', hext, htrue, ⟨related, hrun, hresolves⟩ | ⟨e, hrun, hresolve⟩⟩ :=
        fetch_run hviews hw (hw.registry p hp hlt) hlt r
      · exact ⟨related, w', tryCatch_eq_ok.mpr (Or.inl hrun), hext, htrue, hresolves⟩
      · rw [← hext.store, ← hext.hasSchema_eq, ← hext.record p hlt] at hresolve
        obtain ⟨w'', hdegrade, hext', htrue', hresolves⟩ :=
          degrade_run htrue r e hresolve (Nat.lt_of_lt_of_le hlt hext.size_le)
        exact ⟨_, w'', tryCatch_eq_ok.mpr (Or.inr ⟨e, w', hrun, hdegrade⟩), hext.trans hext',
          htrue', hresolves⟩
    obtain ⟨related, w', hrun, hext, htrue, hresolves⟩ := hfetch
    have hlt' := Nat.lt_of_lt_of_le hlt hext.size_le
    rw [← hext.schema p hlt] at hname
    have hcache := World.extends_changeProxy w' p (f := fun proxy => proxy.cache name related)
      (fun _ => rfl) (fun _ => rfl) (fun _ => rfl)
    refine ⟨related, _, ?_, hext.trans hcache, htrue.cache hlt' hname hresolves,
      hresolves.extends hcache hlt'⟩
    dsimp only
    rw [bind_of_ok hrun]
    rfl

end ProxyId

end RecordGraph
