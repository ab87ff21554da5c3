import RecordGraph.Proofs.Session.Maintaining
import RecordGraph.Proofs.Session.Persisting

/-!
The two policies side by side.  A pedantic run does what the permissive run does up to the first field
that cannot be written, and fails there; the permissive run reports that field and goes on.  Where no
field is skipped the two runs are one.
-/

namespace RecordGraph

open RecordGraph.Computation Workspace

namespace Error

/-- All that can be asked about an error. -/
def questions : List (Error → Bool) :=
  [isValidation, isCardinality, isUnknownField, isRecordNotFound, isAlreadyExists,
    isConstraintViolation, isObjectNotFound, isInvalidSchema, isRelationResolution, isStoreError]

@[simp] theorem rejection?_context_adhoc (e : Error) (text : String) :
    (e.context (adhoc text)).rejection? = e.rejection? := rfl

/-- A context that only says what was tried answers every question as the error itself does. -/
theorem ask_context_adhoc (e : Error) (text : String) {question : Error → Bool}
    (hquestion : question ∈ questions) : question (e.context (adhoc text)) = question e := by
  simp only [questions, List.mem_cons, List.not_mem_nil, or_false] at hquestion
  rcases hquestion with rfl | rfl | rfl | rfl | rfl | rfl | rfl | rfl | rfl | rfl <;> rfl

end Error

/-- Whether a report is about a field that was skipped. -/
def Warning.isSkip : Warning → Bool
  | .fieldSkipped .. => true
  | _ => false

theorem Warning.isSkip_iff {warning : Warning} :
    warning.isSkip = true ↔ warning.message = "skipping field" := by
  cases warning <;> simp [isSkip, message]

namespace Workspace

/-- A field was reported as skipped in the meantime. -/
def SkipsSome (s t : Workspace) : Prop :=
  ∃ warning ∈ t.world.warnings.drop s.world.warnings.length, warning.message = "skipping field"

/-- Reports were only added in the meantime, with or without one of a skipped field among them. -/
def Logs (s t : Workspace) (skipped : Bool) : Prop :=
  ∃ new, t.world.warnings = s.world.warnings ++ new ∧ new.any Warning.isSkip = skipped

variable {s t u : Workspace} {b c : Bool}

theorem Logs.of_eq (h : t.world.warnings = s.world.warnings) : s.Logs t false :=
  ⟨[], by rw [h, List.append_nil], rfl⟩

theorem Logs.trans (hst : s.Logs t b) (htu : t.Logs u c) : s.Logs u (b || c) := by
  obtain ⟨first, hfirst, hb⟩ := hst
  obtain ⟨second, hsecond, hc⟩ := htu
  exact ⟨first ++ second, by rw [hsecond, hfirst, List.append_assoc], by rw [List.any_append, hb, hc]⟩

theorem Logs.skipsSome_iff (h : s.Logs t b) : s.SkipsSome t ↔ b = true := by
  obtain ⟨new, hnew, hb⟩ := h
  unfold SkipsSome
  rw [hnew, List.drop_left, ← hb, List.any_eq_true]
  simp only [Warning.isSkip_iff]

end Workspace

namespace Session

variable {α β : Type} {s t u : Workspace} {policy : Policy} {targets : Targets} {o : ObjectId}
  {p : ProxyId}

/-! ### Runs without reports -/

/-- A computation that reports nothing, whether it succeeds or fails. -/
def Silent (m : SessionM α) : Prop := ∀ s, (m s).2.world.warnings = s.world.warnings

section Silent

variable {m : SessionM α} {f : α → SessionM β}

theorem silent_iff : Silent m ↔ ∀ reports, Preserves (fun s => s.world.warnings = reports) m :=
  ⟨fun h _ s hs => (h s).trans hs, fun h s => h _ s rfl⟩

theorem Silent.of_reads (hm : Reads m) : Silent m := fun s => by rw [hm s]

theorem Silent.bind (hm : Silent m) (hf : ∀ a, Silent (f a)) : Silent (m >>= f) :=
  silent_iff.mpr fun W => (silent_iff.mp hm W).bind fun a => silent_iff.mp (hf a) W

theorem Silent.mapM (hf : ∀ x, Silent (f x)) (xs : List α) : Silent (xs.mapM f) :=
  silent_iff.mpr fun W => .mapM fun x _ => silent_iff.mp (hf x) W

theorem Silent.foldlM {g : β → α → SessionM β} (hg : ∀ acc x, Silent (g acc x)) (xs : List α)
    (start : β) : Silent (xs.foldlM g start) :=
  silent_iff.mpr fun W => .foldlM (fun acc x _ => silent_iff.mp (hg acc x) W) start

theorem silent_pure (a : α) : Silent (pure a) := fun _ => rfl

theorem silent_modify {g : Workspace → Workspace}
    (hg : ∀ s, (g s).world.warnings = s.world.warnings) : Silent (modify g) := hg

theorem silent_act {a : Action α} (ha : ∀ w, (a w).2.warnings = w.warnings) : Silent (act a) :=
  fun s => ha s.world

end Silent

theorem silent_onStore (m : StoreM α) : Silent (onStore m) := silent_act fun _ => rfl

theorem silent_proxyFor (r : RecordRef) : Silent (proxyFor r) := by
  refine (Silent.of_reads reads_get).bind fun s => silent_act fun w => ?_
  cases hschema : (w.registry s.session.registry).schema r.className with
  | error e => rw [Action.newProxy_of_error hschema]
  | ok schema =>
    rw [Action.newProxy_of_ok hschema]
    rfl

theorem silent_record (className id : String) : Silent (record className id) :=
  (Silent.of_reads (reads_askStore _)).bind fun _ => silent_proxyFor _

theorem silent_createRecord (className id : String) (place : Option String) :
    Silent (createRecord className id place) :=
  (Silent.of_reads (reads_database _)).bind fun _ => (silent_onStore _).bind fun _ => silent_proxyFor _

theorem silent_get (o : ObjectId) (name : String) : Silent (act (o.get name)) := by
  refine silent_act fun w => ?_
  rw [ObjectId.get, bind_apply, Action.ask_apply]
  cases (w.object o).read name <;> rfl

theorem silent_applyRename (o : ObjectId) : Silent (applyRename o) := by
  have hforget : ∀ oldId, Silent (do act o.clearRename; modify fun s => s.evict o oldId) :=
    fun _ => (silent_act fun _ => rfl).bind fun _ => silent_modify fun _ => rfl
  refine (Silent.of_reads reads_get).bind fun s => ?_
  dsimp only
  split
  · exact silent_pure _
  · rename_i oldId _
    split
    · exact (Silent.of_reads (reads_askStore _)).bind fun record =>
        (silent_onStore (Store.renameRecord record (s.world.object o).id)).bind fun _ =>
          hforget oldId
    · exact hforget oldId

theorem silent_targetFor (o : ObjectId) : Silent (targetFor o) := by
  refine (Silent.of_reads reads_get).bind fun s => ?_
  dsimp only
  split
  · exact (silent_record _ _).bind fun _ => silent_pure _
  · exact (silent_createRecord _ _ _).bind fun _ => silent_pure _

theorem silent_prepare (targets : Targets) (o : ObjectId) : Silent (prepare targets o) := by
  refine (silent_applyRename o).bind fun _ => (Silent.of_reads reads_get).bind fun s => ?_
  dsimp only
  split
  · exact silent_pure _
  · exact (silent_targetFor o).bind fun _ => silent_pure _

theorem silent_relatedProxy (targets : Targets) (o : ObjectId) :
    Silent (relatedProxy targets o) := by
  refine (Silent.of_reads reads_get).bind fun s => ?_
  dsimp only
  split
  · exact silent_pure _
  · exact silent_record _ _

/-! ### Two runs -/

/-- The outcome of a run. -/
abbrev Outcome (α : Type) := Except Error α × Workspace

/-- How a pedantic run goes beside the permissive run from the same state: they come to the same and
skip nothing, or the pedantic one stops where the permissive one skips a field. -/
inductive Beside (Stops : Error → Workspace → Prop) (s : Workspace) : Outcome α → Outcome α → Prop
  | same {x : Except Error α} {t : Workspace} (silent : s.Logs t false) : Beside Stops s (x, t) (x, t)
  | stopped {e : Error} {t : Workspace} {x : Except Error α} {u : Workspace} (stops : Stops e t)
      (reports : s.Logs u true) : Beside Stops s (.error e, t) (x, u)

/-- Two computations go side by side from every state. -/
def Accord (Stops : Workspace → Error → Workspace → Prop) (m n : SessionM α) : Prop :=
  ∀ s, Beside (Stops s) s (m s) (n s)

section Accord

variable {Stops Stops' : Workspace → Error → Workspace → Prop} {m n : SessionM α}

theorem Beside.logs {Stops : Error → Workspace → Prop} {x y : Outcome α} (h : Beside Stops s x y) :
    ∃ b, s.Logs y.2 b := by
  cases h with
  | same hsilent => exact ⟨_, hsilent⟩
  | stopped _ hreports => exact ⟨_, hreports⟩

theorem Beside.of_ok {Stops : Error → Workspace → Prop} {x y : Outcome α} {a : α}
    (h : Beside Stops s x y) (hx : x = (.ok a, t)) : y = (.ok a, t) := by
  cases h with
  | same => exact hx
  | stopped => simp at hx

theorem Beside.of_error {Stops : Error → Workspace → Prop} {x y : Outcome α} {e : Error}
    (h : Beside Stops s x y) (hx : x = (.error e, t)) : y = (.error e, t) ∨ Stops e t := by
  cases h with
  | same => exact Or.inl hx
  | stopped hstops =>
    cases hx
    exact Or.inr hstops

/-- A pedantic run succeeds exactly when the permissive one does and skips nothing. -/
theorem Beside.ok_iff {Stops : Error → Workspace → Prop} {x y : Outcome α} (h : Beside Stops s x y) :
    (∃ a t, x = (.ok a, t)) ↔ ∃ a t, y = (.ok a, t) ∧ ¬ s.SkipsSome t := by
  cases h with
  | @same x t hsilent =>
    have hnone : ¬ s.SkipsSome t := by simp [hsilent.skipsSome_iff]
    constructor
    · rintro ⟨a, u, heq⟩
      cases heq
      exact ⟨a, t, rfl, hnone⟩
    · rintro ⟨a, u, heq, -⟩
      exact ⟨a, u, heq⟩
  | @stopped e t x u hstops hreports =>
    constructor
    · rintro ⟨a, v, heq⟩
      cases heq
    · rintro ⟨a, v, heq, hnone⟩
      cases heq
      exact absurd (hreports.skipsSome_iff.mpr rfl) hnone

theorem Silent.accord (hm : Silent m) : Accord Stops m m := fun s => .same (.of_eq (hm s))

theorem Beside.mono {P Q : Error → Workspace → Prop} {x y : Outcome α} (h : Beside P s x y)
    (hmono : ∀ e t, P e t → Q e t) : Beside Q s x y := by
  cases h with
  | same hsilent => exact .same hsilent
  | stopped hstops hreports => exact .stopped (hmono _ _ hstops) hreports

theorem Accord.mono (h : Accord Stops m n) (hmono : ∀ s e t, Stops s e t → Stops' s e t) :
    Accord Stops' m n := fun s => (h s).mono (hmono s)

/-- Two runs stop in their first parts, or in what follows on a common first part. -/
theorem Accord.bind {StopsAfter : α → Workspace → Error → Workspace → Prop}
    {f g : α → SessionM β} (hm : Accord Stops m n) (hf : ∀ a, Accord (StopsAfter a) (f a) (g a)) :
    Accord (fun s e t => Stops s e t ∨ ∃ a u, m s = (.ok a, u) ∧ StopsAfter a u e t)
      (m >>= f) (n >>= g) := by
  intro s
  have hs := hm s
  rw [bind_apply, bind_apply]
  generalize hrun : m s = x at hs ⊢
  generalize n s = y at hs ⊢
  cases hs with
  | @same x t hsilent =>
    cases x with
    | error e => exact .same hsilent
    | ok a =>
      have ht := hf a t
      dsimp only
      generalize f a t = x at ht ⊢
      generalize g a t = y at ht ⊢
      cases ht with
      | same hrest => exact .same (hsilent.trans hrest)
      | stopped hstops hreports =>
        exact .stopped (Or.inr ⟨a, t, hrun, hstops⟩) (hsilent.trans hreports)
  | @stopped e t x u hstops hreports =>
    cases x with
    | error e' => exact .stopped (Or.inl hstops) hreports
    | ok a =>
      obtain ⟨b, hrest⟩ := (hf a u).logs
      exact .stopped (Or.inl hstops) (hreports.trans hrest)

/-- Two runs with a silent first part stop in what follows. -/
theorem Silent.accord_bind {k : SessionM α} {StopsAfter : α → Workspace → Error → Workspace → Prop}
    {f g : α → SessionM β} (hk : Silent k) (hf : ∀ a, Accord (StopsAfter a) (f a) (g a)) :
    Accord (fun s e t => ∃ a u, k s = (.ok a, u) ∧ StopsAfter a u e t) (k >>= f) (k >>= g) :=
  have hsame : Accord (fun _ _ _ => False) k k := hk.accord
  (hsame.bind hf).mono fun _ _ _ h => h.resolve_left id

/-- Two runs with a silent rest stop in what comes before. -/
theorem Accord.bind_silent {f : α → SessionM β} (hm : Accord Stops m n) (hf : ∀ a, Silent (f a)) :
    Accord Stops (m >>= f) (n >>= f) :=
  have hsame : ∀ a, Accord (fun _ _ _ => False) (f a) (f a) := fun a => (hf a).accord
  (hm.bind hsame).mono fun _ _ _ h => h.elim id fun ⟨_, _, _, hfalse⟩ => hfalse.elim

/-- Two runs of a loop stop at one of its items, after a common run over the items before. -/
theorem Accord.forM {StopsAt : α → Workspace → Error → Workspace → Prop}
    {f g : α → SessionM PUnit} (h : ∀ x, Accord (StopsAt x) (f x) (g x)) (xs : List α) :
    Accord (fun s e t => ∃ before x after u, xs = before ++ x :: after
      ∧ before.forM f s = (.ok ⟨⟩, u) ∧ StopsAt x u e t) (xs.forM f) (xs.forM g) := by
  induction xs with
  | nil => exact (silent_pure _).accord
  | cons x xs ih =>
    refine ((h x).bind fun _ => ih).mono ?_
    rintro s e t (hstops | ⟨_, u, hx, before, y, after, v, hsplit, hbefore, hstops⟩)
    · exact ⟨[], x, xs, s, rfl, rfl, hstops⟩
    · exact ⟨x :: before, y, after, v, by rw [hsplit]; rfl, (bind_of_ok hx).trans hbefore, hstops⟩

end Accord

/-! ### Writes of fields -/

/-- What is written to a field of a record. -/
inductive FieldWrite
  | attribute (name : String) (v : Value)
  | relation (name : String) (related : Related)

namespace FieldWrite

def name : FieldWrite → String
  | .attribute name _ => name
  | .relation name _ => name

/-- Writes to the record behind a proxy. -/
def run (p : ProxyId) : FieldWrite → SessionM Unit
  | .attribute name v => do let _ ← act (p.setAttribute name v)
  | .relation name related => act (p.setRelation name related)

theorem run_cases (w : FieldWrite) (p : ProxyId) (s : Workspace) :
    (∃ e, w.run p s = (.error e, s))
      ∨ ∃ t, w.run p s = (.ok (), t) ∧ t.world.warnings = s.world.warnings := by
  rcases w with ⟨name, v⟩ | ⟨name, related⟩
  · rw [run, setAttribute_run]
    rcases s.world.attributeWrite p name v with e | ⟨v', place⟩
    · exact Or.inl ⟨e, rfl⟩
    · exact Or.inr ⟨_, rfl, rfl⟩
  · rw [run, act_apply, ProxyId.setRelation_apply]
    rcases s.world.relationWrite p name related with e | place
    · exact Or.inl ⟨e, rfl⟩
    · exact Or.inr ⟨_, rfl, rfl⟩

/-- A write that fails changes nothing. -/
theorem run_of_error {w : FieldWrite} {e : Error} (h : (w.run p s).1 = .error e) :
    w.run p s = (.error e, s) := by
  rcases w.run_cases p s with ⟨e', hrun⟩ | ⟨t, hrun, -⟩
  · rw [hrun] at h ⊢
    cases h
    rfl
  · simp [hrun] at h

end FieldWrite

/-- The context that a pedantic run puts an error in. -/
def cannotWrite (object : Object) (field : String) : Error :=
  .adhoc ("cannot write `" ++ field ++ "` of " ++ object.fullName)

/-- Writes a field, by a policy. -/
def attempt (policy : Policy) (o : ObjectId) (p : ProxyId) (w : FieldWrite) : SessionM Unit :=
  tryCatch (w.run p) (skipOrFail policy o w.name)

/-- A pedantic attempt fails with an error that the write failed with, put in context. -/
def Refuses (o : ObjectId) (p : ProxyId) (w : FieldWrite) (s : Workspace) (e : Error)
    (t : Workspace) : Prop :=
  s = t ∧ ∃ cause, (w.run p t).1 = .error cause
    ∧ e = cause.context (cannotWrite (t.world.object o) w.name)

theorem attempt_of_error {w : FieldWrite} {cause : Error} (h : (w.run p s).1 = .error cause) :
    attempt .pedantic o p w s
      = (.error (cause.context (cannotWrite (s.world.object o) w.name)), s) := by
  rw [attempt, tryCatch_apply, FieldWrite.run_of_error h]
  rfl

theorem accord_attempt (o : ObjectId) (p : ProxyId) (w : FieldWrite) :
    Accord (Refuses o p w) (attempt .pedantic o p w) (attempt .permissive o p w) := by
  intro s
  rcases w.run_cases p s with ⟨e, hrun⟩ | ⟨t, hrun, hsilent⟩
  · rw [attempt_of_error (congrArg Prod.fst hrun), attempt, tryCatch_apply, hrun]
    exact .stopped ⟨rfl, e, congrArg Prod.fst hrun, rfl⟩ ⟨[_], rfl, rfl⟩
  · have hattempt : ∀ policy, attempt policy o p w s = (.ok (), t) := fun policy => by
      rw [attempt, tryCatch_apply, hrun]
    rw [hattempt, hattempt]
    exact .same (.of_eq hsilent)

/-! ### Fields that a run comes to -/

/-- Writing the fields of an object comes to a write: the fields before it were written, and what is
written was read from the object. -/
inductive Comes (targets : Targets) (o : ObjectId) (p : ProxyId) (s : Workspace) :
    FieldWrite → Workspace → Prop
  | toAttribute {before after : List String} {name : String} {u t : Workspace} {v : Value}
      (split : (s.world.object o).schema.attributes.keys = before ++ name :: after)
      (earlier : before.forM (writeAttribute .pedantic o p) s = (.ok ⟨⟩, u))
      (read : act (o.get name) u = (.ok (.value v), t)) :
      Comes targets o p s (.attribute name v) t
  | toRelation {before after : List Relation} {r : Relation} {a u v t : Workspace} {f : Field}
      {qs : List ProxyId}
      (attributes :
        (s.world.object o).schema.attributes.keys.forM (writeAttribute .pedantic o p) s = (.ok ⟨⟩, a))
      (split : (s.world.object o).schema.relations.values = before ++ r :: after)
      (earlier : before.forM (writeRelation .pedantic targets o p) a = (.ok ⟨⟩, u))
      (read : act (o.get r.name) u = (.ok f, v))
      (related : f.targets.mapM (relatedProxy targets) v = (.ok qs, t)) :
      Comes targets o p s (.relation r.name (if r.multivalue then .many qs else .one qs.head?)) t

/-- A pedantic update comes to a write: all records were prepared, and the objects before this one
were written. -/
inductive Attempts (o : ObjectId) (recursive : Bool) (s : Workspace) :
    ObjectId → ProxyId → FieldWrite → Workspace → Prop
  | intro {targets : Targets} {before after : List ObjectId} {x : ObjectId} {u v t : Workspace}
      {target : Target} {w : FieldWrite}
      (prepared : (persisted s recursive o).foldlM prepare .empty s = (.ok targets, u))
      (split : persisted s recursive o = before ++ x :: after)
      (earlier : before.forM
        (writeObject { policy := .pedantic, recursive, createOnly := false } targets) u = (.ok ⟨⟩, v))
      (known : targets.get? (v.world.nameOf x) = some target)
      (comes : Comes targets x target.proxy v w t) :
      Attempts o recursive s x target.proxy w t

theorem accord_writeAttribute (o : ObjectId) (p : ProxyId) (name : String) :
    Accord (fun s e t => ∃ f u, act (o.get name) s = (.ok f, u)
        ∧ ∃ v, f = .value v ∧ Refuses o p (.attribute name v) u e t)
      (writeAttribute .pedantic o p name) (writeAttribute .permissive o p name) := by
  refine (silent_get o name).accord_bind fun f => ?_
  cases f with
  | value v =>
    exact (accord_attempt o p (.attribute name v)).mono fun _ _ _ hrefuses => ⟨v, rfl, hrefuses⟩
  | _ => exact (silent_pure _).accord

theorem accord_writeRelation (targets : Targets) (o : ObjectId) (p : ProxyId) (r : Relation) :
    Accord (fun s e t => ∃ f u, act (o.get r.name) s = (.ok f, u)
        ∧ ∃ qs v, f.targets.mapM (relatedProxy targets) u = (.ok qs, v)
          ∧ Refuses o p (.relation r.name (if r.multivalue then .many qs else .one qs.head?)) v e t)
      (writeRelation .pedantic targets o p r) (writeRelation .permissive targets o p r) :=
  (silent_get o r.name).accord_bind fun f =>
    (Silent.mapM (silent_relatedProxy targets) f.targets).accord_bind fun qs =>
      accord_attempt o p (.relation r.name (if r.multivalue then .many qs else .one qs.head?))

/-- The write that a pedantic run comes to fails, and the run with it. -/
def Fails (comes : FieldWrite → Workspace → Prop) (o : ObjectId) (p : ProxyId) (e : Error)
    (t : Workspace) : Prop :=
  ∃ w cause, comes w t ∧ (w.run p t).1 = .error cause
    ∧ e = cause.context (cannotWrite (t.world.object o) w.name)

theorem accord_writeFields (targets : Targets) (o : ObjectId) (p : ProxyId) :
    Accord (fun s => Fails (Comes targets o p s) o p)
      (writeFields .pedantic targets o p) (writeFields .permissive targets o p) := by
  intro s
  have hboth : Accord _ (_ >>= fun _ => _) (_ >>= fun _ => _) :=
    (Accord.forM (accord_writeAttribute o p) (s.world.object o).schema.attributes.keys).bind fun _ =>
      Accord.forM (accord_writeRelation targets o p) (s.world.object o).schema.relations.values
  refine (hboth s).mono ?_
  rintro e t (⟨before, name, after, u, hsplit, hearlier, f, v, hget, value, rfl, rfl, cause, hfails, he⟩
    | ⟨_, a, hattributes, before, r, after, u, hsplit, hearlier, f, v, hget, qs, w, hrelated, rfl,
      cause, hfails, he⟩)
  · exact ⟨_, cause, .toAttribute hsplit hearlier hget, hfails, he⟩
  · exact ⟨_, cause, .toRelation hattributes hsplit hearlier hget hrelated, hfails, he⟩

theorem accord_writeObject (targets : Targets) (o : ObjectId) (recursive : Bool) :
    Accord (fun s e t => ∃ target, targets.get? (s.world.nameOf o) = some target
        ∧ Fails (Comes targets o target.proxy s) o target.proxy e t)
      (writeObject { policy := .pedantic, recursive, createOnly := false } targets o)
      (writeObject { policy := .permissive, recursive, createOnly := false } targets o) := by
  intro s
  rw [writeObject, writeObject, bind_of_ok (get_apply s), bind_of_ok (get_apply s)]
  cases htarget : targets.get? (s.world.nameOf o) with
  | none => exact .same (.of_eq rfl)
  | some target =>
    have hrest : Silent (do act o.clearTouched; modify fun s => s.cache o) :=
      (silent_act fun _ => rfl).bind fun _ => silent_modify fun _ => rfl
    exact ((accord_writeFields targets o target.proxy).bind_silent fun _ => hrest) s |>.mono
      fun e t hfails => ⟨target, htarget, hfails⟩

/-- An update by one policy goes beside the update by the other up to the first write that fails. -/
theorem accord_updateWith (o : ObjectId) (recursive : Bool) :
    Accord (fun s e t => ∃ x p, Fails (Attempts o recursive s x p) x p e t)
      (updateWith .pedantic o recursive) (updateWith .permissive o recursive) := by
  intro s
  rw [updateWith, updateWith, persist_apply, persist_apply]
  refine ((Silent.foldlM silent_prepare _ _).accord_bind fun targets =>
    (Accord.forM (accord_writeObject targets · recursive) _).bind_silent fun _ =>
      .of_reads (reads_rootProxy targets o)) s |>.mono ?_
  rintro e t ⟨targets, u, hprepare, before, x, after, v, hsplit, hearlier, target, hknown, w, cause,
    hcomes, hfails, he⟩
  exact ⟨x, target.proxy, w, cause, .intro hprepare hsplit hearlier hknown hcomes, hfails, he⟩

/-! ### Failing runs

A pedantic run that comes to a write that fails, fails as the write does. -/

theorem forM_of_split {f : α → SessionM PUnit} {xs before after : List α} {x : α} {e : Error}
    (hsplit : xs = before ++ x :: after) (hbefore : before.forM f s = (.ok ⟨⟩, u))
    (hx : f x u = (.error e, t)) : xs.forM f s = (.error e, t) := by
  subst hsplit
  induction before generalizing s with
  | nil =>
    obtain ⟨-, rfl⟩ := Prod.mk.inj hbefore
    exact bind_of_error hx
  | cons y before ih =>
    obtain ⟨_, v, hy, hbefore⟩ := bind_eq_ok.mp hbefore
    exact (bind_of_ok hy).trans (ih hbefore)

theorem writeFields_of_comes {w : FieldWrite} {cause : Error} (hcomes : Comes targets o p s w t)
    (hfails : (w.run p t).1 = .error cause) :
    writeFields .pedantic targets o p s
      = (.error (cause.context (cannotWrite (t.world.object o) w.name)), t) := by
  rw [writeFields, bind_of_ok (get_apply s)]
  have hattempt := attempt_of_error (o := o) hfails
  cases hcomes with
  | toAttribute hsplit hearlier hread =>
    exact bind_of_error (forM_of_split hsplit hearlier ((bind_of_ok hread).trans hattempt))
  | toRelation hattributes hsplit hearlier hread hrelated =>
    exact (bind_of_ok hattributes).trans (forM_of_split hsplit hearlier
      ((bind_of_ok hread).trans ((bind_of_ok hrelated).trans hattempt)))

theorem updateWith_of_attempts {recursive : Bool} {x : ObjectId} {w : FieldWrite} {cause : Error}
    (hattempts : Attempts o recursive s x p w t) (hfails : (w.run p t).1 = .error cause) :
    updateWith .pedantic o recursive s
      = (.error (cause.context (cannotWrite (t.world.object x) w.name)), t) := by
  obtain @⟨targets, before, after, _, u, v, _, target, _, hprepare, hsplit, hearlier, hknown, hcomes⟩
    := hattempts
  rw [updateWith, persist_apply]
  refine (bind_of_ok hprepare).trans (bind_of_error (forM_of_split hsplit hearlier ?_))
  refine (bind_of_ok (get_apply v)).trans ?_
  simp only [hknown]
  exact bind_of_error (writeFields_of_comes hcomes hfails)

/-- The policies agree where nothing is skipped: a pedantic update succeeds exactly when the permissive
one does without reporting a skipped field, and then they come to the same.  A pedantic update fails
as the permissive one does or at a field that cannot be written, and then with an error that answers
every question as the error of the write does. -/
theorem updateWith_policies (s : Workspace) (o : ObjectId) (recursive : Bool) :
    ((∃ p t, updateWith .pedantic o recursive s = (.ok p, t))
        ↔ ∃ p t, updateWith .permissive o recursive s = (.ok p, t) ∧ ¬ s.SkipsSome t)
      ∧ (∀ p t, updateWith .pedantic o recursive s = (.ok p, t) →
        updateWith .permissive o recursive s = (.ok p, t))
      ∧ (∀ e t, updateWith .pedantic o recursive s = (.error e, t) →
        updateWith .permissive o recursive s = (.error e, t)
          ∨ ∃ x p w cause, Attempts o recursive s x p w t ∧ (w.run p t).1 = .error cause)
      ∧ ∀ x p w t cause, Attempts o recursive s x p w t → (w.run p t).1 = .error cause →
        ∃ e, updateWith .pedantic o recursive s = (.error e, t)
          ∧ e.rejection? = cause.rejection?
          ∧ ∀ question ∈ Error.questions, question e = question cause := by
  have hbeside := accord_updateWith o recursive s
  refine ⟨hbeside.ok_iff, fun p t => hbeside.of_ok, ?_, ?_⟩
  · intro e t hrun
    rcases hbeside.of_error hrun with hsame | ⟨x, p, w, cause, hattempts, hfails, -⟩
    · exact Or.inl hsame
    · exact Or.inr ⟨x, p, w, cause, hattempts, hfails⟩
  · intro x p w t cause hattempts hfails
    refine ⟨_, updateWith_of_attempts hattempts hfails, Error.rejection?_context_adhoc cause _,
      fun question hquestion => ?_⟩
    exact Error.ask_context_adhoc cause _ hquestion

/-- A person whose note holds a list, which its class does not allow. -/
def unfitSession : Workspace :=
  (act ((⟨0⟩ : ObjectId).setUnchecked "note" (.value (.list [.text "x"]))) severedHydrated).2

/-- Where every field can be written the policies come to the same.  The list makes the pedantic update
fail with the error of its write, in context. -/
theorem updateWith_policies_note :
    (∃ p t, updateWith .pedantic ⟨0⟩ true severedNoted = (.ok p, t)
        ∧ updateWith .permissive ⟨0⟩ true severedNoted = (.ok p, t))
      ∧ ∃ x p w cause e t, Attempts ⟨0⟩ false unfitSession x p w t ∧ (w.run p t).1 = .error cause
        ∧ updateWith .pedantic ⟨0⟩ false unfitSession = (.error e, t)
        ∧ cause.isCardinality = true ∧ e.isCardinality = true := by
  constructor
  · obtain ⟨p, hrun⟩ := run_of_isOk (m := updateWith .pedantic ⟨0⟩ true) (s := severedNoted)
      (by decide +kernel)
    exact ⟨p, _, hrun, (updateWith_policies severedNoted ⟨0⟩ true).2.1 p _ hrun⟩
  · obtain ⟨e, hrun⟩ := run_of_not_isOk (m := updateWith .pedantic ⟨0⟩ false) (s := unfitSession)
      (by decide +kernel)
    obtain ⟨-, -, herror, hquestions⟩ := updateWith_policies unfitSession ⟨0⟩ false
    rcases herror e _ hrun with hsame | ⟨x, p, w, cause, hattempts, hfails⟩
    · have hok : (updateWith .permissive ⟨0⟩ false unfitSession).1.isOk = true := by decide +kernel
      rw [hsame] at hok
      exact absurd hok (by simp [Except.isOk, Except.toBool])
    · obtain ⟨e', hrun', -, hask⟩ := hquestions x p w _ cause hattempts hfails
      have hkind : (((updateWith .pedantic ⟨0⟩ false unfitSession).1.map fun _ => false).tryCatch
          fun e => .ok e.isCardinality).toOption = some true := by decide +kernel
      rw [hrun'] at hkind
      have hcardinality : e'.isCardinality = true := Option.some.inj hkind
      refine ⟨x, p, w, cause, e', _, hattempts, hfails, hrun', ?_, hcardinality⟩
      exact (hask Error.isCardinality (by simp [Error.questions])).symm.trans hcardinality

end Session

end RecordGraph
