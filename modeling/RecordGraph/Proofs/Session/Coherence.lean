import RecordGraph.Proofs.Proxy.Caching
import RecordGraph.Proofs.Registry.Membership
import RecordGraph.Proofs.Session.Declaring
import RecordGraph.Proofs.Session.Restoring

/-!
Coherence of what proxies keep of relations.  Whatever happens to the store between the calls on a
proxy, a relation goes on reading as it was written last, or as it was read first if it was not written;
it is marked exactly if that first read could not fetch it, which is reported once.  What was written
reads alike through a new proxy.
-/

namespace RecordGraph

open RecordGraph.Computation

/-! ### Calls one after the other -/

namespace ProxyId

variable {p : ProxyId} {name : String} {calls : List (World × ProxyCall)} {u w : World} {c : ProxyCall}

/-- What was written to a relation last. -/
def lastWritten? (p : ProxyId) (name : String) (calls : List (World × ProxyCall)) : Option Related :=
  calls.reverse.findSome? fun x => x.2.writes? p name x.1

/-- The world in which a relation was read first. -/
def firstRead? (p : ProxyId) (name : String) (calls : List (World × ProxyCall)) : Option World :=
  (calls.find? fun x => x.2.reads p name x.1).map Prod.fst

/-- All that calls report. -/
def reports (p : ProxyId) (calls : List (World × ProxyCall)) : List Warning :=
  calls.flatMap fun x => x.2.reports p x.1

/-- A relation cannot be fetched. -/
def FailsToFetch (p : ProxyId) (name : String) (w : World) : Prop :=
  ∃ r e, (w.proxy p).schema.relation? name = some r ∧ (p.fetch r w).1 = .error e

theorem lastWritten?_concat : p.lastWritten? name (calls ++ [(w, c)])
    = (c.writes? p name w).or (p.lastWritten? name calls) := by
  simp only [lastWritten?, List.reverse_append, List.reverse_singleton, List.singleton_append,
    List.findSome?_cons]
  cases c.writes? p name w <;> rfl

theorem firstRead?_concat : p.firstRead? name (calls ++ [(w, c)])
    = (p.firstRead? name calls).or (if c.reads p name w then some w else none) := by
  simp only [firstRead?, List.find?_append, List.find?_singleton]
  cases calls.find? fun x => x.2.reads p name x.1 with
  | some x => rfl
  | none => cases c.reads p name w <;> rfl

theorem reports_concat : p.reports (calls ++ [(w, c)]) = p.reports calls ++ c.reports p w := by
  simp [reports]

/-- What is read first is read. -/
theorem isOk_of_firstRead? (h : p.firstRead? name calls = some u) :
    (p.getRelation name u).1.isOk = true := by
  obtain ⟨⟨v, c⟩, hfound, rfl⟩ := Option.map_eq_some_iff.mp h
  have hreads := List.find?_some hfound
  cases c with
  | getRelation other =>
    simp only [ProxyCall.reads, Bool.and_eq_true] at hreads
    exact hreads.2
  | _ => cases hreads

/-! ### What a proxy keeps -/

/-- What a proxy keeps of a relation was written last or else read first, and it is marked exactly if
the latter stands for what could not be fetched. -/
structure Caches (p : ProxyId) (name : String) (calls : List (World × ProxyCall)) (proxy : Proxy) :
    Prop where
  kept : proxy.relations.get? name = (p.lastWritten? name calls).or
    ((p.firstRead? name calls).bind fun u => (p.getRelation name u).1.toOption)
  known : proxy.relations.get? name ≠ none → ∃ r, proxy.schema.relation? name = some r
  degraded_iff : name ∈ proxy.degraded ↔
    p.lastWritten? name calls = none ∧ ∃ u, p.firstRead? name calls = some u ∧ p.FailsToFetch name u
  empty : name ∈ proxy.degraded → ∃ r, proxy.schema.relation? name = some r
    ∧ proxy.relations.get? name = some (.empty r.multivalue)
  unreported : proxy.relations.get? name = none →
    (p.reports calls).countP (·.relation? == some name) = 0
  reported : (p.reports calls).countP (·.relation? == some name) ≤ 1

theorem caches_new {proxy : Proxy} (hrelations : proxy.relations = .empty)
    (hdegraded : proxy.degraded = []) : p.Caches name [] proxy := by
  constructor <;> simp [hrelations, hdegraded, lastWritten?, firstRead?, reports]

namespace Caches

variable {proxy proxy' : Proxy} {r : Relation} {related : Related}

/-- What is not kept was neither written nor read. -/
theorem of_new (h : p.Caches name calls proxy) (hnew : proxy.relations.get? name = none) :
    p.lastWritten? name calls = none ∧ p.firstRead? name calls = none := by
  have hkept := h.kept
  rw [hnew] at hkept
  obtain ⟨hwritten, hread⟩ := Option.or_eq_none_iff.mp hkept.symm
  refine ⟨hwritten, ?_⟩
  cases hfirst : p.firstRead? name calls with
  | none => rfl
  | some u =>
    obtain ⟨related, hrun⟩ := run_of_isOk (isOk_of_firstRead? hfirst)
    rw [hfirst, Option.bind_some, hrun] at hread
    cases hread

/-- A call that leaves alone what is kept of a relation, and reads it only if something is kept. -/
theorem unaffected (h : p.Caches name calls proxy)
    (hrelations : proxy'.relations.get? name = proxy.relations.get? name)
    (hdegraded : name ∈ proxy'.degraded ↔ name ∈ proxy.degraded)
    (hschema : proxy'.schema = proxy.schema) (hwrites : c.writes? p name w = none)
    (hreads : c.reads p name w = true → proxy.relations.get? name ≠ none)
    (hreports : (c.reports p w).countP (·.relation? == some name) = 0) :
    p.Caches name (calls ++ [(w, c)]) proxy' := by
  have hlast : p.lastWritten? name (calls ++ [(w, c)]) = p.lastWritten? name calls := by
    rw [lastWritten?_concat, hwrites, Option.none_or]
  have hcount : (p.reports (calls ++ [(w, c)])).countP (·.relation? == some name)
      = (p.reports calls).countP (·.relation? == some name) := by
    rw [reports_concat, List.countP_append, hreports, Nat.add_zero]
  -- after a write, the call may be the first that reads the relation
  have hfirst : p.lastWritten? name calls = none →
      p.firstRead? name (calls ++ [(w, c)]) = p.firstRead? name calls := by
    intro hunwritten
    rw [firstRead?_concat]
    cases hread : c.reads p name w with
    | false => simp
    | true =>
      have hkept := h.kept ▸ hreads hread
      cases hfirst : p.firstRead? name calls with
      | none => simp [hunwritten, hfirst] at hkept
      | some u => rfl
  constructor
  case kept =>
    rw [hrelations, h.kept, hlast]
    cases hunwritten : p.lastWritten? name calls with
    | none => rw [hfirst hunwritten]
    | some related => rfl
  case known =>
    rw [hrelations, hschema]
    exact h.known
  case degraded_iff =>
    rw [hdegraded, h.degraded_iff, hlast]
    exact and_congr_right fun hunwritten => by rw [hfirst hunwritten]
  case empty =>
    rw [hdegraded, hrelations, hschema]
    exact h.empty
  case unreported =>
    rw [hrelations, hcount]
    exact h.unreported
  case reported =>
    rw [hcount]
    exact h.reported

/-- The first read of a relation. -/
theorem first (h : p.Caches name calls proxy) (hnew : proxy.relations.get? name = none)
    (hread : (p.getRelation name w).1 = .ok related)
    (hrelations : proxy'.relations.get? name = some related)
    (hschema : proxy'.schema.relation? name = some r)
    (hdegraded : name ∈ proxy'.degraded ↔ p.FailsToFetch name w)
    (hempty : p.FailsToFetch name w → related = .empty r.multivalue)
    (hreports : ((ProxyCall.getRelation name).reports p w).countP (·.relation? == some name) ≤ 1) :
    p.Caches name (calls ++ [(w, .getRelation name)]) proxy' := by
  obtain ⟨hunwritten, hunread⟩ := h.of_new hnew
  have hlast : p.lastWritten? name (calls ++ [(w, .getRelation name)]) = none := by
    rw [lastWritten?_concat, hunwritten]
    rfl
  have hfirst : p.firstRead? name (calls ++ [(w, .getRelation name)]) = some w := by
    rw [firstRead?_concat, hunread]
    simp [ProxyCall.reads, hread, Except.isOk, Except.toBool]
  constructor
  case kept =>
    rw [hlast, hfirst, hrelations]
    simp [hread, Except.toOption]
  case known => exact fun _ => ⟨r, hschema⟩
  case degraded_iff =>
    rw [hlast, hfirst, hdegraded]
    simp
  case empty => exact fun hmem => ⟨r, hschema, hempty (hdegraded.mp hmem) ▸ hrelations⟩
  case unreported =>
    intro hnone
    cases hrelations.symm.trans hnone
  case reported =>
    rw [reports_concat, List.countP_append, h.unreported hnew, Nat.zero_add]
    exact hreports

/-- A write of a relation. -/
theorem write (h : p.Caches name calls proxy) (hwrite : (p.setRelation name related w).1 = .ok ())
    (hrelations : proxy'.relations.get? name = some related)
    (hschema : proxy'.schema.relation? name = some r) (hdegraded : name ∉ proxy'.degraded)
    (hreports : (ProxyCall.setRelation name related).reports p w = []) :
    p.Caches name (calls ++ [(w, .setRelation name related)]) proxy' := by
  have hlast : p.lastWritten? name (calls ++ [(w, .setRelation name related)]) = some related := by
    rw [lastWritten?_concat]
    simp [ProxyCall.writes?, hwrite, Except.isOk, Except.toBool]
  constructor
  case kept =>
    rw [hlast, hrelations]
    rfl
  case known => exact fun _ => ⟨r, hschema⟩
  case degraded_iff =>
    rw [hlast]
    simp [hdegraded]
  case empty => exact fun hmem => absurd hmem hdegraded
  case unreported =>
    intro hnone
    cases hrelations.symm.trans hnone
  case reported =>
    rw [reports_concat, hreports, List.append_nil]
    exact h.reported

/-- Whatever the outcome of a call, the proxy goes on to keep what was written last or else read
first. -/
theorem call (h : p.Caches name calls (w.proxy p)) (houtcome : c.Outcome p w) :
    p.Caches name (calls ++ [(w, c)]) ((c.run p w).proxy p) := by
  cases houtcome with
  | idle unwritten unread turns =>
    rw [turns.proxy]
    refine h.unaffected rfl .rfl rfl (unwritten name) (unread name) ?_
    rw [ProxyCall.reports_of_turns turns]
    rfl
  | @fetched other r related known new fetch read turns =>
    rw [turns.proxy]
    by_cases hname : other = name
    · subst hname
      have hfetches : ¬ p.FailsToFetch other w := by
        rintro ⟨r', e, hknown, hfails⟩
        cases known.symm.trans hknown
        cases fetch.symm.trans hfails
      refine h.first new read ?_ known ?_ (fun hfails => absurd hfails hfetches) ?_
      · rw [Proxy.get?_cache, if_pos rfl]
      -- what is marked is kept, and this relation was not
      · refine iff_of_false (fun hmem => ?_) hfetches
        obtain ⟨_, -, hkept⟩ := h.empty hmem
        cases new.symm.trans hkept
      · rw [ProxyCall.reports_of_turns turns]
        exact Nat.zero_le 1
    · refine h.unaffected ?_ .rfl rfl rfl (fun hreads => ?_) ?_
      · rw [Proxy.get?_cache, if_neg (Ne.symm hname)]
      · simp [ProxyCall.reads, hname] at hreads
      · rw [ProxyCall.reports_of_turns turns]
        rfl
  | @failed other r e known new fetch read turns =>
    rw [turns.proxy]
    by_cases hname : other = name
    · subst hname
      refine h.first new read ?_ known ?_ (fun _ => rfl) ?_
      · rw [Proxy.get?_cache, if_pos rfl]
      · exact iff_of_true (Proxy.mem_degraded_degrade.mpr (.inl rfl)) ⟨r, e, known, fetch⟩
      · rw [ProxyCall.reports_of_turns turns]
        exact List.countP_le_length
    · refine h.unaffected ?_ ?_ rfl rfl (fun hreads => ?_) ?_
      · rw [Proxy.get?_cache, if_neg (Ne.symm hname)]
        rfl
      · exact Proxy.mem_degraded_degrade.trans (or_iff_right (Ne.symm hname))
      · simp [ProxyCall.reads, hname] at hreads
      · rw [ProxyCall.reports_of_turns turns]
        simp [ProxyId.degradation, Warning.relation?, hname]
  | @written other r related known write turns =>
    have hquiet := ProxyCall.reports_of_turns turns
    rw [turns.proxy]
    by_cases hname : other = name
    · subst hname
      refine h.write write ?_ known (fun hmem => ?_) hquiet
      · rw [Proxy.get?_cache, if_pos rfl]
      · exact (Proxy.mem_degraded_restore.mp hmem).2 rfl
    · refine h.unaffected ?_ ?_ rfl ?_ (fun hreads => by cases hreads) ?_
      · rw [Proxy.get?_cache, if_neg (Ne.symm hname)]
        rfl
      · exact Proxy.mem_degraded_restore.trans (and_iff_left (Ne.symm hname))
      · simp [ProxyCall.writes?, hname]
      · rw [hquiet]
        rfl

end Caches

end ProxyId

/-! ### New proxies -/

/-- The value that a store keeps for what a relation leads to. -/
theorem Related.toValue_eq_ofRecords (related : Related) (recordOf : ProxyId → RecordRef) :
    related.toValue recordOf = .ofRecords related.isMany (related.targets.map recordOf) := by
  rcases related with (_ | target) | qs
  · rfl
  · rfl
  · simp [toValue, Value.ofRecords, isMany, targets]

namespace World

variable {w w' : World} {p : ProxyId} {name : String} {related : Related}

/-- A new proxy for the record of another reads a relation as leading to the same records, and neither
marks nor reports it. -/
def ReadsAnew (w : World) (p : ProxyId) (name : String) (related : Related) : Prop :=
  ∃ q u again v, Action.newProxy (w.proxy p).registry (w.recordOf p) w = (.ok q, u)
    ∧ q.getRelation name u = (.ok again, v)
    ∧ again.isMany = related.isMany
    ∧ again.targets.map v.recordOf = related.targets.map w.recordOf
    ∧ name ∉ (v.proxy q).degraded ∧ v.warnings = w.warnings

/-- A relation that the store resolves is read so through a new proxy. -/
theorem readsAnew_of_resolve {schema : ClassSchema} {r : Relation}
    (hschema : (w.registry (w.proxy p).registry).schema (w.recordOf p).className = .ok schema)
    (hname : schema.relation? name = some r) (hmany : related.isMany = r.multivalue)
    (hresolve : w.store.resolve (w.hasSchema (w.proxy p).registry) (w.recordOf p) r
      = some (related.targets.map w.recordOf)) : w.ReadsAnew p name related := by
  let q : ProxyId := ⟨w.proxies.size⟩
  let u := w.pushProxy { record := w.recordOf p, schema, registry := (w.proxy p).registry }
  have hext : w.Extends u := extends_pushProxy w _
  have hq : u.proxy q = { record := w.recordOf p, schema, registry := (w.proxy p).registry } := by
    rw [proxy_pushProxy, if_pos rfl]
  have hmade : q.index < u.proxies.size := by simp [q, u, pushProxy]
  have htruthful : w.Truthful (w.proxy p).registry fun x => w.proxies.size ≤ x.index :=
    ⟨fun _ hx hlt => absurd hlt (Nat.not_lt.mpr hx), fun _ hx hlt => absurd hlt (Nat.not_lt.mpr hx),
      fun _ hx hlt => absurd hlt (Nat.not_lt.mpr hx)⟩
  have hresolve' : u.store.resolve (u.hasSchema (w.proxy p).registry) (u.recordOf q) r
      = some (related.targets.map w.recordOf) := by
    rw [hext.store, hext.hasSchema_eq, recordOf, hq]
    exact hresolve
  obtain ⟨t, hfetched, -, ⟨again, hfetch, hresolves⟩ | ⟨e, -, hfails⟩⟩ :=
    ProxyId.fetch_run (fun _ hx => Nat.le_trans hext.size_le hx) (htruthful.pushProxy hschema)
      (by rw [hq]) hmade r
  · have hknown : (u.proxy q).schema.relation? name = some r := by rw [hq]; exact hname
    have hrun := ProxyId.getRelation_of_fetched hknown (by rw [hq]; rfl) (congrArg Prod.fst hfetch)
    have hturns := (ProxyId.turns_fetch hmade r).changeProxy fun proxy => proxy.cache name again
    rw [hfetch] at hrun hturns
    have hcache := extends_changeProxy t q (f := fun proxy => proxy.cache name again)
      (fun _ => rfl) (fun _ => rfl) (fun _ => rfl)
    refine ⟨q, u, again, _, Action.newProxy_of_ok hschema, hrun, hresolves.isMany.trans hmany.symm,
      ?_, ?_, hturns.warnings.trans (List.append_nil _)⟩
    · rw [List.map_congr_left fun x hx => hcache.record x (hresolves.viewed x hx).2, hresolves.records,
        hfetched.store, hfetched.hasSchema_eq, hfetched.record q hmade, hresolve']
      rfl
    · rw [hturns.proxy, hq]
      exact List.not_mem_nil
  · cases hfails.symm.trans hresolve'

/-- What is written to a relation is read through a new proxy, if its targets are from the registry of
the proxy. -/
theorem Orderly.readsAnew (h : w.Orderly) (hp : p.index < w.proxies.size)
    (hset : p.setRelation name related w = (.ok (), w'))
    (htargets : ∀ t ∈ related.targets, t.index < w.proxies.size
      ∧ (w.proxy t).registry = (w.proxy p).registry) : w'.ReadsAnew p name related := by
  rcases p.setRelation_cases name related w with ⟨e, hrun⟩ | ⟨r, place, hname, hwrite, hrun⟩
  · cases hset.symm.trans hrun
  · obtain ⟨r', hname', hcheck, hplace⟩ := relationWrite_eq_ok.mp hwrite
    cases hname.symm.trans hname'
    obtain ⟨-, rfl⟩ := Prod.mk.inj (hset.symm.trans hrun)
    have hmany := (checkRelated_eq_ok.mp hcheck).1
    have hschema := h.proxies p hp
    have hnamed : r.name = name :=
      ((h.registries (w.proxy p).registry).wellNamed _ _ hschema).relations name r hname
    have hput := extends_changeProxy (w.put p name place (related.toValue w.recordOf)) p
      (f := fun proxy => (proxy.restore name).cache name related) (fun _ => rfl) (fun _ => rfl)
      (fun _ => rfl)
    have hrecords := List.map_congr_left fun x hx => hput.record x (htargets x hx).1
    have hread : (w.store.put place (w.recordOf p) name (related.toValue w.recordOf)).read (w.recordOf p)
        r.name r.accessor = .ok (.ofRecords r.multivalue (related.targets.map w.recordOf)) := by
      rw [hnamed, Store.read_put hplace, related.toValue_eq_ofRecords, hmany]
      exact congrArg Except.ok (Value.orEmpty_ofRecords ..)
    have hresolve : (w.store.put place (w.recordOf p) name (related.toValue w.recordOf)).resolve
        (w.hasSchema (w.proxy p).registry) (w.recordOf p) r = some (related.targets.map w.recordOf) := by
      refine Store.resolve_ofRecords hread (fun t ht => ?_) fun hone => ?_
      · obtain ⟨x, hx, rfl⟩ := List.mem_map.mp ht
        obtain ⟨hmade, hregistry⟩ := htargets x hx
        have hknown := h.proxies x hmade
        rw [hregistry] at hknown
        rw [hasSchema, ← OrderedMap.get?_isSome, hknown]
        rfl
      · rw [List.length_map]
        rcases related with (_ | target) | qs
        · exact Nat.zero_le 1
        · exact Nat.le_refl 1
        · cases hmany.trans hone
    refine readsAnew_of_resolve ?_ hname hmany ?_
    · rw [hput.registry p hp, hput.record p hp]
      exact Registry.schema_eq_ok.mpr hschema
    · rw [hput.registry p hp, hput.record p hp, hrecords]
      exact hresolve

theorem Orderly.outcome (h : w.Orderly) (hp : p.index < w.proxies.size) (c : ProxyCall) :
    c.Outcome p w :=
  c.outcome hp ((h.registries (w.proxy p).registry).wellNamed _ _ (h.proxies p hp))

theorem Orderly.proxyCall (h : w.Orderly) (p : ProxyId) (c : ProxyCall) : (c.run p w).Orderly := by
  cases c with
  | getRelation name => exact frame_orderly.keptByProxies.getRelation p name w id h
  | getAttribute name => rwa [ProxyCall.run, p.reads_getAttribute name w]
  | setAttribute name v => exact frame_orderly.keptByProxies.setAttribute p name v w id h
  | setRelation name related => exact frame_orderly.keptByProxies.setRelation p name related w id h

end World

/-- What arises from a system by events other than calls on objects. -/
theorem System.Arises.foldl {y : System} (h : y.Arises) {events : List System.Event}
    (hevents : ∀ event ∈ events, ∀ r call, event ≠ .object r call) :
    (events.foldl System.run y).Arises := by
  induction events generalizing y with
  | nil => exact h
  | cons event events ih =>
    refine ih (h.step event ?_) fun e he => hevents e (List.mem_cons_of_mem event he)
    cases event with
    | object r call => exact absurd rfl (hevents _ List.mem_cons_self r call)
    | _ => trivial

/-! ### Lives -/

namespace ProxyId

variable {p : ProxyId} {name : String} {calls : List (World × ProxyCall)} {w : World}

/-- A proxy was made, and calls were made on it, each in some world.  Anything may happen between them,
above all to the store, as long as the world is orderly, as every world is that arises, and nobody else
changes the proxy. -/
inductive Lives (p : ProxyId) : List (World × ProxyCall) → World → Prop
  | made {w : World} (orderly : w.Orderly) (there : p.index < w.proxies.size)
      (relations : (w.proxy p).relations = .empty) (degraded : (w.proxy p).degraded = []) :
      Lives p [] w
  | between {calls : List (World × ProxyCall)} {w w' : World} (h : Lives p calls w)
      (orderly : w'.Orderly) (there : p.index < w'.proxies.size) (same : w'.proxy p = w.proxy p) :
      Lives p calls w'
  | call {calls : List (World × ProxyCall)} {w : World} (h : Lives p calls w) (c : ProxyCall) :
      Lives p (calls ++ [(w, c)]) (c.run p w)

namespace Lives

theorem orderly (h : p.Lives calls w) : w.Orderly ∧ p.index < w.proxies.size := by
  induction h with
  | made orderly there | between _ orderly there => exact ⟨orderly, there⟩
  | call _ c ih => exact ⟨ih.1.proxyCall p c, (ih.1.outcome ih.2 c).header.1⟩

/-- Whatever is done to the store comes between calls. -/
theorem onStore {α : Type} (h : p.Lives calls w) (m : StoreM α) :
    p.Lives calls (Action.onStore m w).2 :=
  h.between (World.frame_orderly.keptByProxies.onStore m w id h.orderly.1) h.orderly.2 rfl

theorem outcome (h : p.Lives calls w) (c : ProxyCall) : c.Outcome p w :=
  h.orderly.1.outcome h.orderly.2 c

theorem caches (h : p.Lives calls w) (name : String) : p.Caches name calls (w.proxy p) := by
  induction h with
  | made _ _ relations degraded => exact caches_new relations degraded
  | between _ _ _ same ih => rwa [same]
  | call h c ih => exact ih.call (h.outcome c)

/-- All that the calls report is that a relation of the record cannot be fetched. -/
theorem mem_reports (h : p.Lives calls w) {warning : Warning} (hmem : warning ∈ p.reports calls) :
    ∃ field message, warning
      = .relationDegraded (w.recordOf p).className (w.recordOf p).id field message := by
  induction h with
  | made => cases hmem
  | between _ _ _ same ih =>
    rw [World.recordOf, same]
    exact ih hmem
  | call h c ih =>
    rw [(h.outcome c).header.2.1]
    rw [reports_concat] at hmem
    rcases List.mem_append.mp hmem with hmem | hmem
    · exact ih hmem
    · obtain ⟨field, cause, rfl⟩ := (h.outcome c).mem_reports hmem
      exact ⟨field, _, rfl⟩

/-- After any calls on a proxy, whatever happened to the store in between, a relation reads as it was
written last, or else as it was read first.  It is marked exactly if it reads so because it could not be
fetched, and then it is empty; this is all that is reported, and once for each relation at most.  A
write that fails changes nothing, and after one that succeeds a new proxy reads what was written. -/
theorem relations_coherent (h : p.Lives calls w) (name : String) :
    (∀ r, (w.proxy p).schema.relation? name = some r →
        ∃ related w', p.getRelation name w = (.ok related, w'))
      ∧ (∀ related, p.lastWritten? name calls = some related →
        p.getRelation name w = (.ok related, w))
      ∧ (p.lastWritten? name calls = none → ∀ u, p.firstRead? name calls = some u →
        p.getRelation name w = ((p.getRelation name u).1, w))
      ∧ (name ∈ (w.proxy p).degraded ↔ p.lastWritten? name calls = none
        ∧ ∃ u, p.firstRead? name calls = some u ∧ p.FailsToFetch name u)
      ∧ (name ∈ (w.proxy p).degraded → ∃ r, (w.proxy p).schema.relation? name = some r
        ∧ p.getRelation name w = (.ok (.empty r.multivalue), w))
      ∧ (p.reports calls).countP (·.relation? == some name) ≤ 1
      ∧ (∀ warning ∈ p.reports calls, ∃ field message, warning
        = .relationDegraded (w.recordOf p).className (w.recordOf p).id field message)
      ∧ (∀ related e w', p.setRelation name related w = (.error e, w') → w' = w)
      ∧ ∀ related w', p.setRelation name related w = (.ok (), w') →
        (∀ t ∈ related.targets, t.index < w.proxies.size
          ∧ (w.proxy t).registry = (w.proxy p).registry) → w'.ReadsAnew p name related := by
  have hcaches := h.caches name
  have hreads {related : Related} (hkept : (w.proxy p).relations.get? name = some related) :
      p.getRelation name w = (.ok related, w) := by
    obtain ⟨r, hname⟩ := hcaches.known (by simp [hkept])
    exact getRelation_of_kept hname hkept
  refine ⟨fun r hname => ?_, fun related hwritten => hreads ?_, fun hunwritten u hread => ?_,
    hcaches.degraded_iff, fun hmem => ?_, hcaches.reported, fun warning hmem => h.mem_reports hmem,
    fun related e w' hset => ?_, fun related w' hset htargets => ?_⟩
  · cases hkept : (w.proxy p).relations.get? name with
    | some related => exact ⟨related, w, getRelation_of_kept hname hkept⟩
    | none =>
      cases hfetch : (p.fetch r w).1 with
      | ok related => exact ⟨related, _, getRelation_of_fetched hname hkept hfetch⟩
      | error e => exact ⟨_, _, getRelation_of_failed h.orderly.2 hname hkept hfetch⟩
  · rw [hcaches.kept, hwritten]
    rfl
  · obtain ⟨related, hrun⟩ := run_of_isOk (isOk_of_firstRead? hread)
    rw [hrun]
    refine hreads ?_
    rw [hcaches.kept, hunwritten, hread, Option.bind_some, hrun]
    rfl
  · obtain ⟨r, hname, hkept⟩ := hcaches.empty hmem
    exact ⟨r, hname, getRelation_of_kept hname hkept⟩
  · rcases p.setRelation_cases name related w with ⟨_, hrun⟩ | ⟨_, _, _, _, hrun⟩
    · exact (Prod.mk.inj (hset.symm.trans hrun)).2
    · cases hset.symm.trans hrun
  · exact h.orderly.1.readsAnew h.orderly.2 hset htargets

/-- A record that refers to one in an included database, and an empty registry. -/
def linked : System :=
  [.store (.addSchema "s" { classes := [{ name := "A", relations := [{ name := "peer", target := "A" }] }] }),
    .store (.addDatabase "far" []),
    .store (.createDatabase "near" ["s", "far"]),
    .store (.createRecord "far" "A" "b"),
    .store (.createRecord "near" "A" "a"),
    .store (.write ⟨"A", "a"⟩ "peer" ⟨.object, false⟩ (.record ⟨"A", "b"⟩)),
    .newRegistry].foldl System.run {}

/-- The schema is loaded, proxies for both records are made, and the inclusion is removed. -/
def severed : System :=
  [.newProxy ⟨0⟩ ⟨"A", "a"⟩, .newProxy ⟨0⟩ ⟨"A", "b"⟩, .store (.removeInclude "near" "far")].foldl
    System.run { linked with world := ((⟨0⟩ : RegistryId).refreshSchemas linked.world).2 }

theorem arises_severed : severed.Arises := by
  have hlinked : linked.Arises := System.Arises.start.foldl (by simp)
  exact (hlinked.refreshSchemas ⟨0⟩).foldl (by simp)

/-- The relation is read, and then the database is included again. -/
def mended : World :=
  (Action.onStore (Operation.addInclude "near" "far").run
    ((ProxyCall.getRelation "peer").run ⟨0⟩ severed.world)).2

/-- The relation goes on reading as empty, until it is written. -/
theorem relations_coherent_mended :
    (⟨0⟩ : ProxyId).Lives [(severed.world, .getRelation "peer")] mended
      ∧ (⟨0⟩ : ProxyId).getRelation "peer" mended = (.ok (.one none), mended)
      ∧ ∃ w, (⟨0⟩ : ProxyId).setRelation "peer" (.one (some ⟨1⟩)) mended = (.ok (), w)
        ∧ w.ReadsAnew ⟨0⟩ "peer" (.one (some ⟨1⟩)) := by
  have hreads : (ProxyCall.getRelation "peer").reads ⟨0⟩ "peer" severed.world = true := by decide +kernel
  have hstart : (⟨0⟩ : ProxyId).Lives [] severed.world :=
    .made arises_severed.orderly (by decide +kernel) (by decide +kernel) (by decide +kernel)
  have hlives : (⟨0⟩ : ProxyId).Lives [(severed.world, .getRelation "peer")] mended :=
    (hstart.call (.getRelation "peer")).onStore (Operation.addInclude "near" "far").run
  obtain ⟨-, -, hfirst, -, -, -, -, -, hnew⟩ := hlives.relations_coherent "peer"
  have hanswer := hfirst rfl severed.world (by
    simp only [firstRead?, List.find?_cons, hreads, Option.map_some])
  have hempty := run_of_toOption (m := (⟨0⟩ : ProxyId).getRelation "peer") (s := severed.world)
    (a := .one none) (by decide +kernel)
  rw [hempty] at hanswer
  obtain ⟨done, hset⟩ := run_of_isOk (m := (⟨0⟩ : ProxyId).setRelation "peer" (.one (some ⟨1⟩)))
    (s := mended) (by decide +kernel)
  refine ⟨hlives, hanswer, _, hset, hnew _ _ hset ?_⟩
  decide +kernel

end Lives

end ProxyId

end RecordGraph
