import RecordGraph.Proofs.Proxy.Writing
import RecordGraph.Proofs.Schema.Loading

/-!
What proxies keep of relations.  The first read of a relation keeps what is fetched; where nothing can
be fetched, the relation is kept as empty, marked and reported.  A write that succeeds keeps what is
written and takes the mark off.  No other call on a proxy changes what it keeps.
-/

namespace RecordGraph

open RecordGraph.Computation

namespace Proxy

variable {p : Proxy} {name other : String} {related : Related}

theorem get?_cache : (p.cache name related).relations.get? other
    = if other = name then some related else p.relations.get? other := OrderedMap.get?_insert ..

theorem mem_degraded_degrade : other ∈ (p.degrade name).degraded ↔ other = name ∨ other ∈ p.degraded := by
  unfold degrade
  cases hmarked : p.degraded.contains name with
  | true =>
    have hmem : name ∈ p.degraded := List.contains_iff_mem.mp hmarked
    simp only [if_true]
    exact ⟨.inr, fun h => h.elim (fun heq => heq ▸ hmem) id⟩
  | false => simp [or_comm]

theorem mem_degraded_restore : other ∈ (p.restore name).degraded ↔ other ∈ p.degraded ∧ other ≠ name := by
  simp [restore]

end Proxy

namespace World

/-- A proxy comes to be as given, and nothing but what is given is reported. -/
structure Turns (v : World) (p : ProxyId) (proxy : Proxy) (ws : List Warning) (w : World) : Prop where
  made : p.index < w.proxies.size
  proxy : w.proxy p = proxy
  warnings : w.warnings = v.warnings ++ ws

variable {v w : World} {p : ProxyId} {proxy : Proxy} {ws : List Warning}

theorem turns_refl (hp : p.index < w.proxies.size) : w.Turns p (w.proxy p) [] w :=
  ⟨hp, rfl, (List.append_nil _).symm⟩

theorem Turns.newProxy (h : v.Turns p proxy ws w) (reg : RegistryId) (record : RecordRef) :
    v.Turns p proxy ws (Action.newProxy reg record w).2 := by
  cases hschema : (w.registry reg).schema record.className with
  | error e => rwa [Action.newProxy_of_error hschema]
  | ok schema =>
    rw [Action.newProxy_of_ok hschema]
    refine ⟨?_, (proxy_pushProxy_of_lt w _ h.made).trans h.proxy, h.warnings⟩
    simpa [pushProxy] using Nat.lt_succ_of_lt h.made

theorem Turns.changeProxy (h : v.Turns p proxy ws w) (f : Proxy → Proxy) :
    v.Turns p (f proxy) ws (w.changeProxy p f) := by
  refine ⟨by simpa [World.changeProxy] using h.made, ?_, h.warnings⟩
  rw [proxy_changeProxy, if_pos ⟨rfl, h.made⟩, h.proxy]

theorem Turns.warn (h : v.Turns p proxy ws w) (ws' : List Warning) :
    v.Turns p proxy (ws ++ ws') (w.warn ws') :=
  ⟨h.made, h.proxy, by rw [World.warn, h.warnings, List.append_assoc]⟩

end World

namespace ProxyId

variable {w : World} {p : ProxyId} {name : String} {r : Relation} {related : Related} {e : Error}

/-- Fetching a relation leaves the proxy as it is. -/
theorem turns_fetch (hp : p.index < w.proxies.size) (r : Relation) :
    w.Turns p (w.proxy p) [] (p.fetch r w).2 :=
  p.preserves_fetch (fun reg record _ h => h.newProxy reg record) r w (World.turns_refl hp)

/-! ### Single calls -/

theorem getRelation_of_kept (hname : (w.proxy p).schema.relation? name = some r)
    (hkept : (w.proxy p).relations.get? name = some related) :
    p.getRelation name w = (.ok related, w) := by
  rw [getRelation, bind_of_ok (relationSchema_apply hname), bind_of_ok (get_apply w), hkept]
  rfl

/-- The world after a relation was fetched for the first time. -/
theorem getRelation_of_fetched (hname : (w.proxy p).schema.relation? name = some r)
    (hnew : (w.proxy p).relations.get? name = none) (hfetch : (p.fetch r w).1 = .ok related) :
    p.getRelation name w
      = (.ok related, (p.fetch r w).2.changeProxy p fun proxy => proxy.cache name related) := by
  have hrun : (tryCatch (p.fetch r) (p.degrade r) : Action Related) w
      = (.ok related, (p.fetch r w).2) :=
    tryCatch_eq_ok.mpr (.inl (Prod.ext hfetch rfl))
  rw [getRelation, bind_of_ok (relationSchema_apply hname), bind_of_ok (get_apply w), hnew]
  dsimp only
  rw [bind_of_ok hrun]
  rfl

/-- The report of a relation that cannot be fetched. -/
def degradation (p : ProxyId) (w : World) (name : String) (cause : Error) : Warning :=
  .relationDegraded (w.recordOf p).className (w.recordOf p).id name
    (cause.relationResolution name (w.recordOf p).fullName).message

/-- The world after a relation could not be fetched. -/
theorem getRelation_of_failed (hp : p.index < w.proxies.size)
    (hname : (w.proxy p).schema.relation? name = some r)
    (hnew : (w.proxy p).relations.get? name = none) (hfetch : (p.fetch r w).1 = .error e) :
    p.getRelation name w = (.ok (.empty r.multivalue),
      (((p.fetch r w).2.changeProxy p fun proxy => proxy.degrade r.name).warn
        [p.degradation w r.name e]).changeProxy p fun proxy => proxy.cache name (.empty r.multivalue)) := by
  have hrecord : (p.fetch r w).2.recordOf p = w.recordOf p :=
    congrArg Proxy.record (turns_fetch hp r).proxy
  have hrun : (tryCatch (p.fetch r) (p.degrade r) : Action Related) w = (.ok (.empty r.multivalue),
      ((p.fetch r w).2.changeProxy p fun proxy => proxy.degrade r.name).warn
        [p.degradation w r.name e]) := by
    refine tryCatch_eq_ok.mpr (.inr ⟨e, (p.fetch r w).2, Prod.ext hfetch rfl, ?_⟩)
    rw [degradation, ← hrecord]
    rfl
  rw [getRelation, bind_of_ok (relationSchema_apply hname), bind_of_ok (get_apply w), hnew]
  dsimp only
  rw [bind_of_ok hrun]
  rfl

/-- A write of a relation fails and changes nothing, or is put into the store and kept. -/
theorem setRelation_cases (p : ProxyId) (name : String) (related : Related) (w : World) :
    (∃ e, p.setRelation name related w = (.error e, w))
      ∨ ∃ r place, (w.proxy p).schema.relation? name = some r
        ∧ w.relationWrite p name related = .ok place
        ∧ p.setRelation name related w = (.ok (),
          (w.put p name place (related.toValue w.recordOf)).changeProxy p
            fun proxy => (proxy.restore name).cache name related) := by
  rw [setRelation_apply]
  cases hwrite : w.relationWrite p name related with
  | error e => exact .inl ⟨e, rfl⟩
  | ok place =>
    obtain ⟨r, hname, -, -⟩ := World.relationWrite_eq_ok.mp hwrite
    exact .inr ⟨r, place, hname, rfl, rfl⟩

end ProxyId

/-! ### Calls on a proxy -/

/-- A call on a proxy. -/
inductive ProxyCall
  | getRelation (name : String)
  | getAttribute (name : String)
  | setAttribute (name : String) (v : Value)
  | setRelation (name : String) (related : Related)

/-- What a report is about, if it is about a relation. -/
def Warning.relation? : Warning → Option String
  | .relationDegraded _ _ field _ => some field
  | _ => none

namespace ProxyCall

variable {p : ProxyId} {w : World} {name : String} {c : ProxyCall}

/-- The world after a call, whether it succeeds or fails. -/
def run (p : ProxyId) (w : World) : ProxyCall → World
  | .getRelation name => (p.getRelation name w).2
  | .getAttribute name => (p.getAttribute name w).2
  | .setAttribute name v => (p.setAttribute name v w).2
  | .setRelation name related => (p.setRelation name related w).2

/-- What a call reports. -/
def reports (p : ProxyId) (w : World) (c : ProxyCall) : List Warning :=
  (c.run p w).warnings.drop w.warnings.length

/-- Whether a call reads a relation and succeeds. -/
def reads (p : ProxyId) (name : String) (w : World) : ProxyCall → Bool
  | .getRelation other => other = name && (p.getRelation name w).1.isOk
  | _ => false

/-- What a call writes to a relation, if it does and succeeds. -/
def writes? (p : ProxyId) (name : String) (w : World) : ProxyCall → Option Related
  | .setRelation other related =>
    if other = name ∧ (p.setRelation name related w).1.isOk = true then some related else none
  | _ => none

/-- What a call does to the proxy on which it is made, and what it reports. -/
inductive Outcome (p : ProxyId) (w : World) : ProxyCall → Prop
  /-- The call is not about a relation, fails, or reads what is kept. -/
  | idle {c : ProxyCall} (unwritten : ∀ name, c.writes? p name w = none)
      (unread : ∀ name, c.reads p name w = true → (w.proxy p).relations.get? name ≠ none)
      (turns : w.Turns p (w.proxy p) [] (c.run p w)) : Outcome p w c
  /-- The relation is read for the first time and fetched. -/
  | fetched {name : String} {r : Relation} {related : Related}
      (known : (w.proxy p).schema.relation? name = some r)
      (new : (w.proxy p).relations.get? name = none) (fetch : (p.fetch r w).1 = .ok related)
      (read : (p.getRelation name w).1 = .ok related)
      (turns : w.Turns p ((w.proxy p).cache name related) [] ((getRelation name).run p w)) :
      Outcome p w (.getRelation name)
  /-- The relation is read for the first time and cannot be fetched. -/
  | failed {name : String} {r : Relation} {e : Error}
      (known : (w.proxy p).schema.relation? name = some r)
      (new : (w.proxy p).relations.get? name = none) (fetch : (p.fetch r w).1 = .error e)
      (read : (p.getRelation name w).1 = .ok (.empty r.multivalue))
      (turns : w.Turns p (((w.proxy p).degrade name).cache name (.empty r.multivalue))
        [p.degradation w name e] ((getRelation name).run p w)) :
      Outcome p w (.getRelation name)
  /-- The relation is written. -/
  | written {name : String} {r : Relation} {related : Related}
      (known : (w.proxy p).schema.relation? name = some r)
      (write : (p.setRelation name related w).1 = .ok ())
      (turns : w.Turns p (((w.proxy p).restore name).cache name related) []
        ((setRelation name related).run p w)) :
      Outcome p w (.setRelation name related)

theorem outcome_getRelation (hp : p.index < w.proxies.size)
    (hnamed : (w.proxy p).schema.WellNamed) (name : String) : Outcome p w (.getRelation name) := by
  have hunwritten : ∀ other, (getRelation name).writes? p other w = none := fun _ => rfl
  cases hname : (w.proxy p).schema.relation? name with
  | none =>
    have hrun := ProxyId.getRelation_of_unknown hname
    refine .idle hunwritten (fun other hreads => ?_) ?_
    · obtain ⟨rfl, hok⟩ := by simpa [reads] using hreads
      simp [hrun, Except.isOk, Except.toBool] at hok
    · rw [run, hrun]
      exact World.turns_refl hp
  | some r =>
    cases hkept : (w.proxy p).relations.get? name with
    | some related =>
      refine .idle hunwritten (fun other hreads => ?_) ?_
      · obtain ⟨rfl, -⟩ := by simpa [reads] using hreads
        simp [hkept]
      · rw [run, ProxyId.getRelation_of_kept hname hkept]
        exact World.turns_refl hp
    | none =>
      have hturns := ProxyId.turns_fetch hp r
      cases hfetch : (p.fetch r w).1 with
      | ok related =>
        have hrun := ProxyId.getRelation_of_fetched hname hkept hfetch
        refine .fetched hname hkept hfetch (congrArg Prod.fst hrun) ?_
        rw [run, hrun]
        exact hturns.changeProxy fun proxy => proxy.cache name related
      | error e =>
        have hrun := ProxyId.getRelation_of_failed hp hname hkept hfetch
        refine .failed hname hkept hfetch (congrArg Prod.fst hrun) ?_
        rw [run, hrun, hnamed.relations name r hname]
        exact ((hturns.changeProxy fun proxy => proxy.degrade name).warn [p.degradation w name e]).changeProxy
          fun proxy => proxy.cache name (.empty r.multivalue)

theorem outcome_setRelation (hp : p.index < w.proxies.size) (name : String) (related : Related) :
    Outcome p w (.setRelation name related) := by
  rcases p.setRelation_cases name related w with ⟨e, hrun⟩ | ⟨r, place, hname, -, hrun⟩
  · refine .idle (fun other => if_neg ?_) (fun _ hreads => by cases hreads) ?_
    · rintro ⟨rfl, hok⟩
      simp [hrun, Except.isOk, Except.toBool] at hok
    · rw [run, hrun]
      exact World.turns_refl hp
  · refine .written hname (congrArg Prod.fst hrun) ?_
    have hput : w.Turns p (w.proxy p) [] (w.put p name place (related.toValue w.recordOf)) :=
      ⟨hp, rfl, (List.append_nil _).symm⟩
    rw [run, hrun]
    exact hput.changeProxy fun proxy => (proxy.restore name).cache name related

/-- Whatever is called on a proxy has one of the outcomes. -/
theorem outcome (hp : p.index < w.proxies.size) (hnamed : (w.proxy p).schema.WellNamed)
    (c : ProxyCall) : Outcome p w c := by
  cases c with
  | getRelation name => exact outcome_getRelation hp hnamed name
  | getAttribute name =>
    refine .idle (fun _ => rfl) (fun _ hread => by cases hread) ?_
    rw [run, p.reads_getAttribute name w]
    exact World.turns_refl hp
  | setAttribute name v =>
    refine .idle (fun _ => rfl) (fun _ hread => by cases hread) ?_
    rw [run, ProxyId.setAttribute_apply]
    cases w.attributeWrite p name v with
    | error e => exact World.turns_refl hp
    | ok written => exact ⟨hp, rfl, (List.append_nil _).symm⟩
  | setRelation name related => exact outcome_setRelation hp name related

theorem reports_of_turns {proxy : Proxy} {ws : List Warning} (h : w.Turns p proxy ws (c.run p w)) :
    c.reports p w = ws := by
  rw [reports, h.warnings, List.drop_left]

/-- A call leaves alone which record a proxy is for, and which schema it goes by. -/
theorem Outcome.header (h : Outcome p w c) : p.index < (c.run p w).proxies.size
    ∧ (c.run p w).recordOf p = w.recordOf p ∧ ((c.run p w).proxy p).schema = (w.proxy p).schema := by
  unfold World.recordOf
  cases h with
  | idle _ _ turns | fetched _ _ _ _ turns | failed _ _ _ _ turns | written _ _ turns =>
    rw [turns.proxy]
    exact ⟨turns.made, rfl, rfl⟩

/-- All that a call reports is that a relation cannot be fetched. -/
theorem Outcome.mem_reports (h : Outcome p w c) {warning : Warning}
    (hmem : warning ∈ c.reports p w) : ∃ name cause, warning = p.degradation w name cause := by
  cases h with
  | idle _ _ turns | fetched _ _ _ _ turns | written _ _ turns =>
    simp [reports_of_turns turns] at hmem
  | @failed name _ e _ _ _ _ turns =>
    rw [reports_of_turns turns] at hmem
    exact ⟨name, e, List.mem_singleton.mp hmem⟩

end ProxyCall

end RecordGraph
