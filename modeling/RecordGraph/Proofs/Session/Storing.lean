import RecordGraph.Proofs.Session.Writing

/-!
What writing an object stores.  An attribute that reads as a value is stored as the coerced value, and
one that does not is left as it is stored; a relation is stored as the records of what it reads as.
Under the permissive policy a field that cannot be written stays as it is stored and is reported.
-/

namespace RecordGraph

open RecordGraph.Computation Workspace

/-- The value that a store keeps for a relation to records. -/
def Value.ofRecords (multivalue : Bool) (rs : List RecordRef) : Value :=
  if multivalue then .list (rs.map .record)
  else match rs.head? with
    | some r => .record r
    | none => .null

namespace World

/-- The record that a relation to an object is written as. -/
def recordFor (w : World) (targets : Session.Targets) (o : ObjectId) : Option RecordRef :=
  match targets.get? (w.nameOf o) with
  | some target => some (w.recordOf target.proxy)
  | none => w.store.find (w.object o).className (w.object o).id

/-- The value that a relation of an object is written as. -/
def relationValue (w : World) (targets : Session.Targets) (o : ObjectId) (r : Relation) : Value :=
  .ofRecords r.multivalue (((w.object o).leadsTo r.name).filterMap (w.recordFor targets))

end World

namespace Session

variable {s t u : Workspace} {policy : Policy} {targets : Targets} {o : ObjectId} {p q : ProxyId}
  {name : String} {W : RecordRef → String → Prop} {P : ObjectId → String → Prop}

/-- The proxies of the prepared records exist. -/
def Targets.Exist (targets : Targets) (s : Workspace) : Prop :=
  ∀ name target, targets.get? name = some target → target.proxy.index < s.world.proxies.size

theorem Targets.Exist.mono (h : targets.Exist s)
    (hst : s.world.proxies.size ≤ t.world.proxies.size) : targets.Exist t :=
  fun name target htarget => Nat.lt_of_lt_of_le (h name target htarget) hst

theorem recordFor_eq (h : Writes W P s t) (htargets : targets.Exist s) :
    t.world.recordFor targets = s.world.recordFor targets := by
  funext o
  unfold World.recordFor
  rw [h.nameOf, h.shape.find]
  cases htarget : targets.get? (s.world.nameOf o) with
  | some target => simp only [h.record _ (htargets _ _ htarget)]
  | none =>
    unfold Object.className
    simp only [(h.alike o).type, (h.alike o).id]

theorem relationValue_eq (h : Writes W P s t) (htargets : targets.Exist s) (o : ObjectId)
    (r : Relation) : t.world.relationValue targets o r = s.world.relationValue targets o r := by
  unfold World.relationValue Object.leadsTo
  rw [recordFor_eq h htargets, (h.alike o).reads]

theorem skipOrFail_run {e : Error} {v : Unit}
    (hrun : skipOrFail policy o name e s = (.ok v, t)) :
    policy = .permissive
      ∧ t = { s with world := s.world.warn [s.skipped o name e.message] } := by
  rw [skipOrFail, bind_of_ok (get_apply s)] at hrun
  cases policy with
  | permissive => exact ⟨rfl, (Prod.mk.inj hrun).2.symm⟩
  | pedantic => simp at hrun

/-- A write that changes nothing when it fails is done, or skipped and reported. -/
theorem tryCatch_skipOrFail_run {m : SessionM Unit} {v : Unit}
    (hatomic : ∀ e t, m s = (.error e, t) → t = s)
    (hrun : (tryCatch m (skipOrFail policy o name) : SessionM Unit) s = (.ok v, t)) :
    m s = (.ok (), t) ∨ policy = .permissive ∧ ∃ e, m s = (.error e, s)
      ∧ t = { s with world := s.world.warn [s.skipped o name e.message] } := by
  rcases tryCatch_eq_ok.mp hrun with hdone | ⟨e, s₁, hfail, hskip⟩
  · exact Or.inl hdone
  · obtain rfl := hatomic e s₁ hfail
    obtain ⟨hpolicy, heq⟩ := skipOrFail_run hskip
    exact Or.inr ⟨hpolicy, e, hfail, heq⟩

/-! ### Attributes -/

/-- What writing an attribute comes to, given what it reads as: a value is stored coerced, unless it
may be skipped, and anything else leaves what is stored. -/
def AttributeStored (policy : Policy) (p : ProxyId) (name : String) (s t : Workspace) : Field → Prop
  | .value v =>
    (∃ a v', (s.world.proxy p).schema.attribute? name = some a
      ∧ a.coerce (s.world.recordName p) (s.world.isKnown (s.world.proxy p).registry) v = .ok v'
      ∧ s.world.store.checkField (s.world.recordOf p) name = .ok ()
      ∧ s.Wrote t (s.world.recordOf p) name (some v'))
    ∨ policy = .permissive ∧ s.Wrote t (s.world.recordOf p) name none
  | _ => s.Wrote t (s.world.recordOf p) name none

theorem AttributeStored.writes {f : Field} (h : AttributeStored policy p name s t f)
    (htu : Writes W P t u) (hW : ¬ W (s.world.recordOf p) name) :
    AttributeStored policy p name s u f := by
  cases f with
  | value v =>
    rcases h with ⟨a, v', ha, hcoerce, hfield, hwrote⟩ | ⟨hpolicy, hwrote⟩
    · exact Or.inl ⟨a, v', ha, hcoerce, hfield, hwrote.writes htu hW⟩
    · exact Or.inr ⟨hpolicy, hwrote.writes htu hW⟩
  | _ => exact Wrote.writes (v := none) h htu hW

theorem AttributeStored.of_writes {f : Field} (hst : Writes W P s t)
    (hW : ¬ W (s.world.recordOf p) name) (hp : p.index < s.world.proxies.size)
    (h : AttributeStored policy p name t u f) : AttributeStored policy p name s u f := by
  have hnone := hst.wrote hW
  have hlocation := hst.shape.location (s.world.recordOf p)
  have hrecord := hst.record p hp
  cases f with
  | value v =>
    rcases h with ⟨a, v', ha, hcoerce, hfield, hwrote⟩ | ⟨hpolicy, hwrote⟩
    · rw [hst.schema p hp] at ha
      rw [World.recordName, hrecord, hst.registry p hp, hst.isKnown] at hcoerce
      rw [hrecord, hst.shape.checkField] at hfield
      rw [hrecord] at hwrote
      exact Or.inl ⟨a, v', ha, hcoerce, hfield, hst.wrote_some hwrote⟩
    · rw [hrecord] at hwrote
      exact Or.inr ⟨hpolicy, hnone.none_trans hwrote hlocation⟩
  | _ =>
    have hwrote : t.Wrote u (s.world.recordOf p) name none := hrecord ▸ h
    exact hnone.none_trans hwrote hlocation

theorem setAttribute_run (s : Workspace) (p : ProxyId) (name : String) (v : Value) :
    (do let _ ← act (p.setAttribute name v) : SessionM Unit) s
    = match s.world.attributeWrite p name v with
      | .ok (v', place) => (.ok (), { s with world := s.world.put p name place v' })
      | .error e => (.error e, s) := by
  rw [bind_apply, act_apply, ProxyId.setAttribute_apply]
  rcases s.world.attributeWrite p name v with e | ⟨v', place⟩ <;> rfl

theorem trySetAttribute_run {v : Value} {done : Unit} (hW : W (s.world.recordOf p) name)
    (hP : P o name)
    (hrun : (tryCatch (do let _ ← act (p.setAttribute name v)) (skipOrFail policy o name) :
      SessionM Unit) s = (.ok done, t)) :
    Writes W P s t ∧ AttributeStored policy p name s t (.value v) := by
  have hset := setAttribute_run s p name v
  rcases hattribute : s.world.attributeWrite p name v with e | ⟨v', place⟩
  · simp only [hattribute] at hset
    rcases tryCatch_skipOrFail_run (by rw [hset]; simp) hrun with hdone | ⟨hpolicy, e, -, rfl⟩
    · simp [hset] at hdone
    · exact ⟨writes_skip W e.message hP, Or.inr ⟨hpolicy, fun _ _ => rfl⟩⟩
  · simp only [hattribute] at hset
    rcases tryCatch_skipOrFail_run (by rw [hset]; simp) hrun with hdone | ⟨-, e, hfail, -⟩
    · rw [hset] at hdone
      obtain ⟨-, rfl⟩ := Prod.mk.inj hdone
      obtain ⟨a, ha, hcoerce, hplace⟩ := World.attributeWrite_eq_ok.mp hattribute
      obtain ⟨hlocation, -, hfield, -⟩ := Store.writePlace_eq_ok.mp hplace
      exact ⟨writes_put P v' hlocation hW,
        Or.inl ⟨a, v', ha, hcoerce, hfield, wrote_put v' hlocation⟩⟩
    · simp [hset] at hfail

/-- Reading a field of an object keeps what was read. -/
theorem get_run {f : Field} (hrun : act (o.get name) s = (.ok f, t)) :
    (s.world.object o).reads name = .ok f ∧ t.world.store = s.world.store
      ∧ t.world.warnings = s.world.warnings ∧ ∀ W P, Writes W P s t := by
  obtain ⟨hworld, ht⟩ := act_eq_ok hrun
  obtain ⟨hreads, object, heq, halike, -⟩ := ObjectId.get_run hworld
  rw [heq] at ht
  subst ht
  exact ⟨hreads, rfl, rfl, fun W P => writes_changeObject W P (f := fun _ => object) halike⟩

theorem get_ok {f : Field} (h : (s.world.object o).reads name = .ok f) :
    ∃ t, act (o.get name) s = (.ok f, t) := by
  unfold Object.reads at h
  cases hread : (s.world.object o).read name with
  | error e => simp [hread, Except.map] at h
  | ok found =>
    rw [hread] at h
    cases h
    refine ⟨_, act_of_run (?_ : _ = (_, s.world.changeObject o fun _ => found.2))⟩
    rw [ObjectId.get, bind_apply, Action.ask_apply, hread]
    rfl

/-- Writing an attribute stores the value that it reads as, and leaves the store alone where it does
not read as a value. -/
theorem writeAttribute_run {done : Unit} (hp : p.index < s.world.proxies.size)
    (hW : W (s.world.recordOf p) name) (hP : P o name)
    (hrun : writeAttribute policy o p name s = (.ok done, t)) :
    Writes W P s t ∧ ∃ f, (s.world.object o).reads name = .ok f
      ∧ AttributeStored policy p name s t f := by
  obtain ⟨f, s₁, hget, hrun⟩ := bind_eq_ok.mp hrun
  obtain ⟨hreads, -, -, hkept⟩ := get_run hget
  have hnothing := hkept (fun _ _ => False) (fun _ _ => False)
  have hrecord := hnothing.record p hp
  cases f with
  | value v =>
    obtain ⟨hwrites, hstored⟩ := trySetAttribute_run (hrecord.symm ▸ hW) hP hrun
    exact ⟨(hkept W P).trans hwrites, _, hreads, hstored.of_writes hnothing id hp⟩
  | _ =>
    obtain ⟨-, rfl⟩ := Prod.mk.inj hrun
    exact ⟨hkept W P, _, hreads, hnothing.wrote id⟩

/-! ### Relations -/

/-- The proxy of a target stands for the record that the relation is written as. -/
theorem relatedProxy_run (htargets : targets.Exist s)
    (hrun : relatedProxy targets o s = (.ok q, t)) :
    s.Looks t ∧ some (t.world.recordOf q) = s.world.recordFor targets o
      ∧ q.index < t.world.proxies.size := by
  rw [relatedProxy, bind_of_ok (get_apply s)] at hrun
  unfold World.recordFor
  cases htarget : targets.get? (s.world.nameOf o) with
  | some target =>
    simp only [htarget] at hrun ⊢
    obtain ⟨heq, rfl⟩ := Prod.mk.inj hrun
    cases heq
    exact ⟨.refl s, rfl, htargets _ _ htarget⟩
  | none =>
    simp only [htarget] at hrun ⊢
    obtain ⟨hlooks, -, hfind, hq⟩ := looks_record hrun
    exact ⟨hlooks, hfind.symm, hq⟩

theorem mapM_relatedProxy_run {os : List ObjectId} {qs : List ProxyId}
    (htargets : targets.Exist s) (hrun : os.mapM (relatedProxy targets) s = (.ok qs, t)) :
    s.Looks t ∧ qs.map t.world.recordOf = os.filterMap (s.world.recordFor targets) := by
  suffices h : s.Looks t ∧ (∀ q ∈ qs, q.index < t.world.proxies.size)
      ∧ qs.map t.world.recordOf = os.filterMap (s.world.recordFor targets) from ⟨h.1, h.2.2⟩
  refine mapM_run (fun done qs t => s.Looks t ∧ (∀ q ∈ qs, q.index < t.world.proxies.size)
    ∧ qs.map t.world.recordOf = done.filterMap (s.world.recordFor targets)) hrun
    ⟨.refl s, by simp, rfl⟩ ?_
  rintro done qs o q a b - ⟨hlooks, hbound, hrecords⟩ hstep
  obtain ⟨hnext, hrecord, hq⟩ := relatedProxy_run (htargets.mono hlooks.world.size_le) hstep
  rw [recordFor_eq (hlooks.writes (fun _ _ => False) fun _ _ => False) htargets] at hrecord
  have hkept : qs.map b.world.recordOf = qs.map a.world.recordOf :=
    List.map_congr_left fun q hq => hnext.world.record q (hbound q hq)
  refine ⟨hlooks.trans hnext, ?_, ?_⟩
  · intro q' hq'
    rcases List.mem_append.mp hq' with hq' | hq'
    · exact Nat.lt_of_lt_of_le (hbound q' hq') hnext.world.size_le
    · exact List.mem_singleton.mp hq' ▸ hq
  · rw [List.map_append, List.filterMap_append, hkept, hrecords, List.map_singleton,
      List.filterMap_cons, ← hrecord, List.filterMap_nil]

theorem toValue_ofProxies (multivalue : Bool) (qs : List ProxyId) (recordOf : ProxyId → RecordRef) :
    (if multivalue then Related.many qs else .one qs.head?).toValue recordOf
      = .ofRecords multivalue (qs.map recordOf) := by
  cases multivalue with
  | true => simp [Related.toValue, Value.ofRecords]
  | false => cases qs <;> simp [Related.toValue, Value.ofRecords]

theorem trySetRelation_run {related : Related} {done : Unit} (hW : W (s.world.recordOf p) name)
    (hP : P o name)
    (hrun : (tryCatch (act (p.setRelation name related)) (skipOrFail policy o name) : SessionM Unit) s
      = (.ok done, t)) :
    Writes W P s t
      ∧ s.Wrote t (s.world.recordOf p) name
        (if s.skips t o name then none else some (related.toValue s.world.recordOf))
      ∧ (s.skips t o name = true → policy = .permissive) := by
  have hset : act (p.setRelation name related) s = _ := act_apply _ s
  rw [ProxyId.setRelation_apply] at hset
  rcases hrelation : s.world.relationWrite p name related with e | place
  · simp only [hrelation] at hset
    rcases tryCatch_skipOrFail_run (by rw [hset]; simp) hrun with hdone | ⟨hpolicy, e, -, rfl⟩
    · simp [hset] at hdone
    · refine ⟨writes_skip W e.message hP, ?_, fun _ => hpolicy⟩
      rw [if_pos (s.skips_skip o name e.message)]
      exact fun _ _ => rfl
  · simp only [hrelation] at hset
    rcases tryCatch_skipOrFail_run (by rw [hset]; simp) hrun with hdone | ⟨-, e, hfail, -⟩
    · rw [hset] at hdone
      obtain ⟨-, rfl⟩ := Prod.mk.inj hdone
      obtain ⟨_, _, _, hplace⟩ := World.relationWrite_eq_ok.mp hrelation
      have hlocation := (Store.writePlace_eq_ok.mp hplace).1
      have hput := writes_put P (related.toValue s.world.recordOf) hlocation hW
      have hkeep := looks_changeProxy
        { s with world := s.world.put p name place (related.toValue s.world.recordOf) } p name related
      have hskips : s.skips _ o name = false := skips_of_warnings_eq hkeep.warnings
      refine ⟨hput.trans (hkeep.writes W P), ?_, fun h => by simp [hskips] at h⟩
      rw [hskips]
      exact (wrote_put _ hlocation).writes (hkeep.writes (fun _ _ => False) fun _ _ => False) id
    · simp [hset] at hfail

/-- Writing a relation stores the records of what it leads to, or skips and reports it. -/
theorem writeRelation_run {r : Relation} {done : Unit} (hp : p.index < s.world.proxies.size)
    (htargets : targets.Exist s) (hW : W (s.world.recordOf p) r.name) (hP : P o r.name)
    (hrun : writeRelation policy targets o p r s = (.ok done, t)) :
    Writes W P s t
      ∧ s.Wrote t (s.world.recordOf p) r.name
        (if s.skips t o r.name then none else some (s.world.relationValue targets o r))
      ∧ (s.skips t o r.name = true → policy = .permissive) := by
  obtain ⟨f, s₁, hget, hrun⟩ := bind_eq_ok.mp hrun
  obtain ⟨hreads, -, hwarnings, hkept⟩ := get_run hget
  obtain ⟨qs, s₂, hmapM, hrun⟩ := bind_eq_ok.mp hrun
  have hnothing := hkept (fun _ _ => False) (fun _ _ => False)
  obtain ⟨hlooks, hrecords⟩ := mapM_relatedProxy_run (htargets.mono hnothing.proxies) hmapM
  have hbefore := hnothing.trans (hlooks.writes _ _)
  have hrecord := hbefore.record p hp
  obtain ⟨hwrites, hwrote, hpolicy⟩ := trySetRelation_run (hrecord.symm ▸ hW) hP hrun
  have hvalue : (if r.multivalue then Related.many qs else .one qs.head?).toValue s₂.world.recordOf
      = s.world.relationValue targets o r := by
    rw [toValue_ofProxies, hrecords, recordFor_eq hnothing htargets]
    simp [World.relationValue, Object.leadsTo, hreads]
  have hskips : s.skips t o r.name = s₂.skips t o r.name := by
    rw [hbefore.skips_trans hwrites, skips_of_warnings_eq (hlooks.warnings.trans hwarnings),
      Bool.false_or]
  rw [hskips]
  rw [hrecord, hvalue] at hwrote
  exact ⟨((hkept W P).trans (hlooks.writes W P)).trans hwrites,
    (hbefore.wrote id).none_trans hwrote (hbefore.shape.location _), hpolicy⟩

/-! ### Objects -/

/-- All fields of an object were written to the record behind a proxy. -/
structure Stored (policy : Policy) (targets : Targets) (o : ObjectId) (p : ProxyId)
    (s t : Workspace) : Prop where
  writes : Writes
    (fun r name => r = s.world.recordOf p ∧ (s.world.object o).schema.hasField name = true)
    (fun x name => x = o ∧ (s.world.object o).schema.hasField name = true) s t
  attributes : ∀ name ∈ (s.world.object o).schema.attributes.keys,
    (s.world.object o).schema.relation? name = none →
      ∃ f, (s.world.object o).reads name = .ok f ∧ AttributeStored policy p name s t f
  relations : ∀ r ∈ (s.world.object o).schema.relations.values,
    (s.world.object o).schema.attribute? r.name = none →
      s.Wrote t (s.world.recordOf p) r.name
        (if s.skips t o r.name then none else some (s.world.relationValue targets o r))
      ∧ (s.skips t o r.name = true → policy = .permissive)

theorem forM_writeAttribute_run {names : List String} {done : PUnit} (hnames : names.Nodup)
    (hp : p.index < s.world.proxies.size)
    (hrun : names.forM (writeAttribute policy o p) s = (.ok done, t)) :
    Writes (fun r name => r = s.world.recordOf p ∧ name ∈ names)
        (fun x name => x = o ∧ name ∈ names) s t
      ∧ ∀ name ∈ names, ∃ f, (s.world.object o).reads name = .ok f
        ∧ AttributeStored policy p name s t f := by
  refine forM_run_distinct id (fun done t =>
    Writes (fun r name => r = s.world.recordOf p ∧ name ∈ done) (fun x name => x = o ∧ name ∈ done)
      s t
    ∧ ∀ name ∈ done, ∃ f, (s.world.object o).reads name = .ok f
      ∧ AttributeStored policy p name s t f) (by rwa [List.map_id]) hrun ⟨.refl _ _ s, by simp⟩ ?_
  rintro done name a b - hnew ⟨hbefore, hall⟩ hstep
  rw [List.map_id] at hnew
  have hrecord := hbefore.record p hp
  obtain ⟨hwrites, f, hreads, hstored⟩ := writeAttribute_run
    (W := fun r other => r = s.world.recordOf p ∧ other = name)
    (P := fun x other => x = o ∧ other = name)
    (Nat.lt_of_lt_of_le hp hbefore.proxies) ⟨hrecord, rfl⟩ ⟨rfl, rfl⟩ hstep
  refine ⟨(hbefore.mono ?_ ?_).trans (hwrites.mono ?_ ?_), ?_⟩
  · exact fun r other h => ⟨h.1, List.mem_append_left _ h.2⟩
  · exact fun x other h => ⟨h.1, List.mem_append_left _ h.2⟩
  · exact fun r other h => ⟨h.1, List.mem_append_right _ (List.mem_singleton.mpr h.2)⟩
  · exact fun x other h => ⟨h.1, List.mem_append_right _ (List.mem_singleton.mpr h.2)⟩
  · intro other hother
    by_cases heq : other = name
    · subst heq
      refine ⟨f, (hbefore.alike o).reads other ▸ hreads, ?_⟩
      exact hstored.of_writes hbefore (fun h => hnew h.2) hp
    · rcases List.mem_append.mp hother with hother | hother
      · obtain ⟨g, hg, hkept⟩ := hall other hother
        exact ⟨g, hg, hkept.writes hwrites fun h => heq h.2⟩
      · exact absurd (List.mem_singleton.mp hother) heq

theorem forM_writeRelation_run {rs : List Relation} {done : PUnit}
    (hnames : (rs.map Relation.name).Nodup) (hp : p.index < s.world.proxies.size)
    (htargets : targets.Exist s)
    (hrun : rs.forM (writeRelation policy targets o p) s = (.ok done, t)) :
    Writes (fun r name => r = s.world.recordOf p ∧ name ∈ rs.map Relation.name)
        (fun x name => x = o ∧ name ∈ rs.map Relation.name) s t
      ∧ ∀ r ∈ rs, s.Wrote t (s.world.recordOf p) r.name
          (if s.skips t o r.name then none else some (s.world.relationValue targets o r))
        ∧ (s.skips t o r.name = true → policy = .permissive) := by
  refine forM_run_distinct Relation.name (fun done t =>
    Writes (fun r name => r = s.world.recordOf p ∧ name ∈ done.map Relation.name)
      (fun x name => x = o ∧ name ∈ done.map Relation.name) s t
    ∧ ∀ r ∈ done, s.Wrote t (s.world.recordOf p) r.name
        (if s.skips t o r.name then none else some (s.world.relationValue targets o r))
      ∧ (s.skips t o r.name = true → policy = .permissive)) hnames hrun ⟨.refl _ _ s, by simp⟩ ?_
  rintro done r a b - hnew ⟨hbefore, hall⟩ hstep
  have hrecord := hbefore.record p hp
  obtain ⟨hwrites, hwrote, hpolicy⟩ := writeRelation_run
    (W := fun record other => record = s.world.recordOf p ∧ other = r.name)
    (P := fun x other => x = o ∧ other = r.name)
    (Nat.lt_of_lt_of_le hp hbefore.proxies) (htargets.mono hbefore.proxies) ⟨hrecord, rfl⟩ ⟨rfl, rfl⟩
    hstep
  rw [List.map_append, List.map_singleton]
  refine ⟨(hbefore.mono ?_ ?_).trans (hwrites.mono ?_ ?_), ?_⟩
  · exact fun record other h => ⟨h.1, List.mem_append_left _ h.2⟩
  · exact fun x other h => ⟨h.1, List.mem_append_left _ h.2⟩
  · exact fun record other h => ⟨h.1, List.mem_append_right _ (List.mem_singleton.mpr h.2)⟩
  · exact fun x other h => ⟨h.1, List.mem_append_right _ (List.mem_singleton.mpr h.2)⟩
  · intro r' hr'
    -- A report about one relation comes from the step that wrote it.
    rw [hbefore.skips_trans hwrites]
    rcases List.mem_append.mp hr' with hr' | hr'
    · have hother : ¬ r'.name = r.name := fun heq => hnew (heq ▸ List.mem_map_of_mem hr')
      have hsilent : a.skips b o r'.name = false := Bool.eq_false_iff.mpr fun hskips => by
        obtain ⟨_, ⟨-, heq⟩, -⟩ := hwrites.of_skips hskips
        exact hother heq
      obtain ⟨hold, hpermissive⟩ := hall r' hr'
      rw [hsilent, Bool.or_false]
      exact ⟨hold.writes hwrites fun h => hother h.2, hpermissive⟩
    · obtain rfl := List.mem_singleton.mp hr'
      have hsilent : s.skips a o r'.name = false := Bool.eq_false_iff.mpr fun hskips => by
        obtain ⟨_, ⟨-, hmem⟩, -⟩ := hbefore.of_skips hskips
        exact hnew hmem
      rw [hsilent, Bool.false_or]
      rw [hrecord, relationValue_eq hbefore htargets] at hwrote
      exact ⟨(hbefore.wrote fun h => hnew h.2).none_trans hwrote (hbefore.shape.location _), hpolicy⟩

/-- Writing the fields of an object. -/
theorem writeFields_run {done : Unit} (hnamed : (s.world.object o).schema.WellNamed)
    (hp : p.index < s.world.proxies.size) (htargets : targets.Exist s)
    (hrun : writeFields policy targets o p s = (.ok done, t)) : Stored policy targets o p s t := by
  rw [writeFields, bind_of_ok (get_apply s)] at hrun
  obtain ⟨_, s₁, hattributes, hrelations⟩ := bind_eq_ok.mp hrun
  obtain ⟨hfirst, hall⟩ :=
    forM_writeAttribute_run (s.world.object o).schema.attributes.nodup_keys hp hattributes
  obtain ⟨hsecond, hall'⟩ := forM_writeRelation_run hnamed.nodup_names
    (Nat.lt_of_lt_of_le hp hfirst.proxies) (htargets.mono hfirst.proxies) hrelations
  have hrecord := hfirst.record p hp
  have hfield : ∀ name ∈ (s.world.object o).schema.relations.values.map Relation.name,
      ∃ r, (s.world.object o).schema.relation? name = some r := by
    intro name hname
    obtain ⟨r, hr, rfl⟩ := List.mem_map.mp hname
    exact ⟨r, hnamed.relation?_of_mem hr⟩
  have hattribute : ∀ name ∈ (s.world.object o).schema.attributes.keys,
      (s.world.object o).schema.hasField name = true := by
    intro name hname
    exact ClassSchema.hasField_iff.mpr (.inl (OrderedMap.mem_keys_iff.mp hname))
  have hrelation : ∀ name ∈ (s.world.object o).schema.relations.values.map Relation.name,
      (s.world.object o).schema.hasField name = true := by
    intro name hname
    exact ClassSchema.hasField_iff.mpr (.inr (hfield name hname))
  refine ⟨(hfirst.mono ?_ ?_).trans (hsecond.mono ?_ ?_), ?_, ?_⟩
  · exact fun r name h => ⟨h.1, hattribute name h.2⟩
  · exact fun x name h => ⟨h.1, hattribute name h.2⟩
  · exact fun r name h => ⟨h.1.trans hrecord, hrelation name h.2⟩
  · exact fun x name h => ⟨h.1, hrelation name h.2⟩
  · intro name hname hnone
    obtain ⟨f, hreads, hstored⟩ := hall name hname
    refine ⟨f, hreads, hstored.writes hsecond ?_⟩
    rintro ⟨-, hmem⟩
    obtain ⟨r, hr⟩ := hfield name hmem
    simp [hnone] at hr
  · intro r hr hnone
    obtain ⟨hwrote, hpolicy⟩ := hall' r hr
    have hnew : r.name ∉ (s.world.object o).schema.attributes.keys := by
      intro hmem
      obtain ⟨a, ha⟩ := ClassSchema.exists_attribute?_of_mem hmem
      simp [hnone] at ha
    have hsilent : s.skips s₁ o r.name = false := Bool.eq_false_iff.mpr fun hskips => by
      obtain ⟨_, ⟨-, hmem⟩, -⟩ := hfirst.of_skips hskips
      exact hnew hmem
    rw [hfirst.skips_trans hsecond, hsilent, Bool.false_or]
    rw [hrecord, relationValue_eq hfirst htargets] at hwrote
    exact ⟨(hfirst.wrote fun h => hnew h.2).none_trans hwrote (hfirst.shape.location _), hpolicy⟩

theorem clearTouched_run {done : Unit} (hrun : act o.clearTouched s = (.ok done, t)) :
    (∀ W P, Writes W P s t) ∧ t.world.store = s.world.store
      ∧ t.world.warnings = s.world.warnings := by
  rw [ObjectId.clearTouched, act_apply, modify_apply] at hrun
  obtain ⟨-, rfl⟩ := Prod.mk.inj hrun
  refine ⟨fun W P => writes_changeObject W P (Object.alike_of_eq rfl rfl rfl), rfl, rfl⟩

/-- Writing an object that has a prepared record. -/
theorem writeObject_run {mode : Persistence} {target : Target} {done : Unit}
    (hmode : mode.createOnly = false) (hnamed : (s.world.object o).schema.WellNamed)
    (htargets : targets.Exist s) (htarget : targets.get? (s.world.nameOf o) = some target)
    (hrun : writeObject mode targets o s = (.ok done, t)) :
    Stored mode.policy targets o target.proxy s t := by
  rw [writeObject, bind_of_ok (get_apply s)] at hrun
  simp only [htarget, hmode, Bool.not_false, Bool.true_or, if_true] at hrun
  obtain ⟨_, s₁, hfields, hrun⟩ := bind_eq_ok.mp hrun
  obtain ⟨_, s₂, hclear, hcache⟩ := bind_eq_ok.mp hrun
  rw [modify_apply] at hcache
  obtain ⟨-, rfl⟩ := Prod.mk.inj hcache
  have hp := htargets _ _ htarget
  have hstored := writeFields_run hnamed hp htargets hfields
  obtain ⟨hcleared, -, hwarnings⟩ := clearTouched_run hclear
  have hafter : ∀ W P, Writes W P s₁ (s₂.cache o) := fun W P =>
    (hcleared W P).trans (writes_cache W P s₂ o)
  have hnothing := hafter (fun _ _ => False) fun _ _ => False
  refine ⟨hstored.writes.trans (hafter _ _), ?_, ?_⟩
  · intro name hname hnone
    obtain ⟨f, hreads, hattribute⟩ := hstored.attributes name hname hnone
    exact ⟨f, hreads, hattribute.writes hnothing id⟩
  · intro r hr hnone
    obtain ⟨hwrote, hpolicy⟩ := hstored.relations r hr hnone
    have hsilent : s₁.skips (s₂.cache o) o r.name = false := skips_of_warnings_eq hwarnings
    rw [hstored.writes.skips_trans hnothing, hsilent, Bool.or_false]
    exact ⟨hwrote.writes hnothing id, hpolicy⟩

end Session

end RecordGraph
