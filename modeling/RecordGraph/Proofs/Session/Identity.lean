import RecordGraph.Proofs.Session.Remembering
import RecordGraph.Proofs.Session.Rereading

/-!
Which object answers for a class and id.  Calls that hydrate records give the object that came into
the cache last, and so the same object again and again until another one is persisted: persisting
caches the persisted object also where another one of its class and id was cached, and from then on
calls give the other one.
-/

namespace RecordGraph

open RecordGraph.Computation

namespace History

variable {H : History} {v w : World}

theorem notes_congr (h : ∀ o, (w.object o).record = (v.object o).record) (os : List ObjectId) :
    H.notes w os = H.notes v os := by
  unfold notes
  simp only [h]

end History

namespace Session

open Workspace

variable {s t : Workspace} {H : History} {mode : Persistence} {targets : Targets} {o : ObjectId}
  {os : List ObjectId}

/-! ### Persisting -/

/-- The objects that are cached while objects are written one after the other, until one cannot be
written. -/
def cachedWhile (mode : Persistence) (targets : Targets) : List ObjectId → Workspace → List ObjectId
  | [], _ => []
  | o :: os, s =>
    match writeObject mode targets o s with
    | (.ok _, t) => o :: cachedWhile mode targets os t
    | (.error _, _) => []

/-- The objects that persisting an object caches, in that order. -/
def cachedBy (mode : Persistence) (o : ObjectId) (s : Workspace) : List ObjectId :=
  match (persisted s mode.recursive o).foldlM prepare .empty s with
  | (.ok targets, t) => cachedWhile mode targets (persisted s mode.recursive o) t
  | (.error _, _) => []

theorem applyRename_of_none (hold : (s.world.object o).oldId = none) :
    applyRename o s = (.ok (), s) := by
  rw [applyRename, bind_of_ok (get_apply s), hold]
  rfl

theorem preserves_prepare (targets : Targets) (hold : (s.world.object o).oldId = none) :
    Preserves s.Maintains (prepare targets o) := by
  intro t ht
  rw [prepare, bind_of_ok (applyRename_of_none ((ht.world.oldId o).trans hold))]
  refine (reads_get.preserves.bind fun u => ?_) t ht
  dsimp only
  split
  · exact preserves_pure _
  · exact (preserves_targetFor o).bind fun _ => preserves_pure _

/-- Writing an object with a record fails, or caches the object in the end. -/
theorem writeObject_cases (mode : Persistence)
    (hknown : targets.contains (s.world.nameOf o) = true) :
    (∃ e t, writeObject mode targets o s = (.error e, t) ∧ s.Maintains t)
      ∨ ∃ t, writeObject mode targets o s = (.ok (), t.cache o) ∧ s.Maintains t := by
  obtain ⟨target, htarget⟩ := Option.isSome_iff_exists.mp
    ((OrderedMap.get?_isSome targets _).trans hknown)
  rw [writeObject, bind_of_ok (get_apply s)]
  simp only [htarget]
  split
  · rcases hrun : writeFields mode.policy targets o target.proxy s with ⟨e | done, t⟩
    all_goals have hfields := (preserves_writeFields _ _ _ _).run (.refl s) hrun
    · rw [bind_of_error hrun]
      exact Or.inl ⟨e, t, rfl, hfields⟩
    · rw [bind_of_ok hrun]
      exact Or.inr ⟨_, rfl, preserves_act o.preserves_clearTouched t hfields⟩
  · exact Or.inr ⟨s, rfl, .refl s⟩

/-- Objects that are written come into the cache one after the other. -/
theorem forM_writeObject_remembers (mode : Persistence) (hs : s.Remembers H)
    (hinstances : ∀ o ∈ os, s.Instance o)
    (hknown : ∀ o ∈ os, targets.contains (s.world.nameOf o) = true) :
    s.Keeps (os.forM (writeObject mode targets) s).2
      ∧ (os.forM (writeObject mode targets) s).2.Remembers
        (H.notes s.world (cachedWhile mode targets os s)) := by
  induction os generalizing s H with
  | nil => exact ⟨.refl s, hs⟩
  | cons o os ih =>
    rcases writeObject_cases mode (hknown o List.mem_cons_self) with
      ⟨e, t, hrun, hmaintains⟩ | ⟨t, hrun, hmaintains⟩
    · have hnone : cachedWhile mode targets (o :: os) s = [] := by rw [cachedWhile, hrun]
      have hfails : (o :: os).forM (writeObject mode targets) s = (.error e, t) := bind_of_error hrun
      rw [hfails, hnone]
      exact ⟨hmaintains.idles.toKeeps, hs.idle hmaintains.idles⟩
    · have hsome : cachedWhile mode targets (o :: os) s
          = o :: cachedWhile mode targets os (t.cache o) := by rw [cachedWhile, hrun]
      have hnext : (o :: os).forM (writeObject mode targets) s
          = os.forM (writeObject mode targets) (t.cache o) := bind_of_ok hrun
      have hkeeps : s.Keeps (t.cache o) := hmaintains.idles.toKeeps.trans (keeps_cache t o)
      have hcached := (hs.idle hmaintains.idles).cache
        (hmaintains.idles.isInstance (hinstances o List.mem_cons_self))
      rw [hmaintains.record] at hcached
      obtain ⟨hrest, hremembers⟩ := ih hcached
        (fun x hx => hkeeps.isInstance (hinstances x (List.mem_cons_of_mem o hx)))
        (fun x hx => by
          have hname : (t.cache o).world.nameOf x = s.world.nameOf x :=
            congrArg RecordRef.fullName (hmaintains.record x)
          rw [hname]
          exact hknown x (List.mem_cons_of_mem o hx))
      rw [hnext, hsome]
      refine ⟨hkeeps.trans hrest, ?_⟩
      rwa [History.notes_congr (w := (t.cache o).world) hmaintains.record] at hremembers

/-- Persisting caches what it persists, one object after the other, and another object that was cached
before for the same class and id gives way. -/
theorem persist_remembers (hs : s.Remembers H)
    (hinstances : ∀ x ∈ persisted s mode.recursive o, s.Instance x) :
    s.Keeps (persist mode o s).2
      ∧ (persist mode o s).2.Remembers (H.notes s.world (cachedBy mode o s)) := by
  rcases hrun : (persisted s mode.recursive o).foldlM prepare .empty s with ⟨e | targets, t⟩
  all_goals have hprepare := (Preserves.foldlM
    (fun targets x hx => preserves_prepare targets (hinstances x hx).oldId) _).run (.refl s) hrun
  · have hnone : cachedBy mode o s = [] := by rw [cachedBy, hrun]
    have hfails : persist mode o s = (.error e, t) :=
      (bind_of_ok (get_apply s)).trans (bind_of_error hrun)
    rw [hfails, hnone]
    exact ⟨hprepare.idles.toKeeps, hs.idle hprepare.idles⟩
  · obtain ⟨hprepares, -, hknown⟩ := foldlM_prepare_run hrun
    have hsome : cachedBy mode o s = cachedWhile mode targets (persisted s mode.recursive o) t := by
      rw [cachedBy, hrun]
    have hstate : (persist mode o s).2
        = ((persisted s mode.recursive o).forM (writeObject mode targets) t).2 := by
      refine (congrArg Prod.snd ((bind_of_ok (get_apply s)).trans (bind_of_ok hrun))).trans
        (state_bind_of_reads (fun _ => reads_get.bind fun u => ?_) t)
      dsimp only
      split
      · exact fun _ => rfl
      · exact reads_throw _
    obtain ⟨hkeeps, hremembers⟩ := forM_writeObject_remembers mode
      (hs.idle hprepare.idles) (fun x hx => hprepare.idles.isInstance (hinstances x hx))
      (fun x hx => by rw [hprepares.nameOf]; exact hknown x hx)
    rw [hstate, hsome]
    refine ⟨hprepare.idles.toKeeps.trans hkeeps, ?_⟩
    rwa [History.notes_congr hprepare.record] at hremembers

/-! ### Events -/

/-- What a session shows of its cache: a call gave an object for its class and id, or an object was
persisted and cached. -/
inductive Event
  | returned (r : RecordRef) (o : ObjectId)
  | cached (r : RecordRef) (o : ObjectId)
deriving DecidableEq, Repr

/-- The object that answers for a class and id after an event. -/
def Event.answer (r : RecordRef) (known : Option ObjectId) : Event → Option ObjectId
  | .returned other o => if other = r then known.or (some o) else known
  | .cached other o => if other = r then some o else known

/-- The object that an event caches for a class and id. -/
def Event.cachedFor? (r : RecordRef) : Event → Option ObjectId
  | .returned .. => none
  | .cached other o => if other = r then some o else none

/-- The object that answers for a class and id after some events. -/
def answer (r : RecordRef) (es : List Event) : Option ObjectId := es.foldl (Event.answer r) none

/-- After an object answered for a class and id, what was cached last for them answers, if anything. -/
theorem foldl_answer_some (r : RecordRef) (o : ObjectId) (es : List Event) :
    es.foldl (Event.answer r) (some o) = some ((es.filterMap (Event.cachedFor? r)).getLastD o) := by
  induction es generalizing o with
  | nil => rfl
  | cons e es ih =>
    cases e with
    | returned other x =>
      have hsame : Event.answer r (some o) (.returned other x) = some o := by
        simp [Event.answer]
      rw [List.foldl_cons, hsame, ih]
      rfl
    | cached other x =>
      rw [List.foldl_cons, List.filterMap_cons]
      by_cases heq : other = r
      · simp only [Event.answer, Event.cachedFor?, if_pos heq]
        rw [ih, List.getLastD_cons]
      · simp only [Event.answer, Event.cachedFor?, if_neg heq]
        exact ih o

/-- A history explains events: the objects that answer are those that came into the cache last, and
no call ever gave another object than the one that answered before. -/
structure Explains (H : History) (es : List Event) : Prop where
  answers : ∀ r o, answer r es = some o → H r = some o
  returned : ∀ before r o after, es = before ++ .returned r o :: after →
    ∀ x, answer r before = some x → x = o

namespace Explains

variable {H' : History} {r : RecordRef} {es : List Event} {w : World}

theorem nil (H : History) : Explains H [] := ⟨by simp [answer], by simp⟩

theorem extend (h : Explains H es) (hextends : H.Extends H') : Explains H' es :=
  ⟨fun r o ho => hextends r o (h.answers r o ho), h.returned⟩

theorem answer_concat (r : RecordRef) (es : List Event) (e : Event) :
    answer r (es ++ [e]) = e.answer r (answer r es) := by
  rw [answer, List.foldl_append]
  rfl

/-- An event that happens last. -/
theorem returned_concat {e : Event} (h : Explains H es)
    (hlast : ∀ r o, e = .returned r o → ∀ x, answer r es = some x → x = o) :
    ∀ before r o after, es ++ [e] = before ++ .returned r o :: after →
      ∀ x, answer r before = some x → x = o := by
  intro before r o after heq
  rcases List.eq_nil_or_concat after with rfl | ⟨others, last, rfl⟩
  · obtain ⟨rfl, hlasts⟩ := List.append_inj' heq rfl
    exact hlast r o (List.singleton_inj.mp hlasts)
  · have hsplit : es ++ [e] = (before ++ .returned r o :: others) ++ [last] := by simpa using heq
    exact h.returned before r o others (List.append_inj' hsplit rfl).1

/-- A call gives the object that came into the cache last. -/
theorem give (h : Explains H es) (ho : H r = some o) : Explains H (es ++ [.returned r o]) := by
  have hknown : ∀ x, answer r es = some x → x = o := fun x hx =>
    Option.some.inj ((h.answers r x hx).symm.trans ho)
  refine ⟨fun other x hx => ?_, h.returned_concat ?_⟩
  · rw [answer_concat, Event.answer] at hx
    split at hx
    · rename_i heq
      subst heq
      cases hanswer : answer r es with
      | none =>
        rw [hanswer] at hx
        exact hx ▸ ho
      | some y =>
        rw [hanswer] at hx
        exact hx ▸ h.answers r y hanswer
    · exact h.answers other x hx
  · rintro _ _ ⟨⟩
    exact hknown

/-- An object comes into the cache. -/
theorem note (h : Explains H es) (r : RecordRef) (o : ObjectId) :
    Explains (H.note r o) (es ++ [.cached r o]) := by
  refine ⟨fun other x hx => ?_, h.returned_concat (by rintro _ _ ⟨⟩)⟩
  rw [answer_concat, Event.answer] at hx
  split at hx
  · rename_i heq
    exact (if_pos heq.symm).trans hx
  · rename_i hne
    exact (if_neg (Ne.symm hne)).trans (h.answers other x hx)

theorem giveAll {os : List ObjectId} (h : Explains H es)
    (hos : ∀ o ∈ os, H (w.object o).record = some o) :
    Explains H (es ++ os.map fun o => .returned (w.object o).record o) := by
  induction os generalizing es with
  | nil => simpa using h
  | cons o os ih =>
    have hrest := ih (h.give (hos o List.mem_cons_self)) fun x hx => hos x (List.mem_cons_of_mem o hx)
    simpa using hrest

theorem noteAll (h : Explains H es) (w : World) (os : List ObjectId) :
    Explains (H.notes w os) (es ++ os.map fun o => .cached (w.object o).record o) := by
  induction os generalizing es H with
  | nil => simpa [History.notes] using h
  | cons o os ih =>
    have hnotes : H.notes w (o :: os) = (H.note (w.object o).record o).notes w os := rfl
    rw [hnotes]
    simpa using ih (h.note (w.object o).record o)

end Explains

/-! ### Runs -/

/-- The events of a call. -/
def givenBy (c : Call) (s : Workspace) : List Event :=
  (given (c.run s).1).map fun o => .returned ((c.run s).2.world.object o).record o

/-- The events of persisting an object. -/
def cachedFrom (mode : Persistence) (o : ObjectId) (s : Workspace) : List Event :=
  (cachedBy mode o s).map fun o => .cached (s.world.object o).record o

/-- How a session runs: calls are answered and objects are persisted, whether with success or not,
and between that the session is idle.  What is persisted leads to objects of the session only, on
which no rename waits. -/
inductive Runs (s : Workspace) : List Event → Workspace → Prop
  | start : Runs s [] s
  | call {es : List Event} {t : Workspace} (before : Runs s es t) (c : Call) :
      Runs s (es ++ givenBy c t) (c.run t).2
  | add {es : List Event} {t : Workspace} (before : Runs s es t) (o : ObjectId) (recursive : Bool)
      (instances : ∀ x ∈ persisted t recursive o, t.Instance x) :
      Runs s (es ++ cachedFrom { policy := t.session.policy, recursive, createOnly := true } o t)
        (add o recursive t).2
  | update {es : List Event} {t : Workspace} (before : Runs s es t) (policy : Policy) (o : ObjectId)
      (recursive : Bool) (instances : ∀ x ∈ persisted t recursive o, t.Instance x) :
      Runs s (es ++ cachedFrom { policy, recursive, createOnly := false } o t)
        (updateWith policy o recursive t).2
  | idle {es : List Event} {t u : Workspace} (before : Runs s es t) (step : t.Idles u) :
      Runs s es u

namespace Runs

variable {es : List Event}

/-- A session keeps what it had, and what came into its cache explains its events. -/
def Explained (s : Workspace) (es : List Event) (t : Workspace) : Prop :=
  s.Keeps t ∧ ∃ H, t.Remembers H ∧ Explains H es

theorem explained_call (h : Explained s es t) (c : Call) :
    Explained s (es ++ givenBy c t) (c.run t).2 := by
  obtain ⟨hkeeps, H, ht, hexplains⟩ := h
  obtain ⟨H', hextends, hu, hgiven⟩ := c.run_recalls ht (Prod.eta (c.run t)).symm
  refine ⟨hkeeps.trans (c.preserves_run t .refl).keeps, H', hu,
    (hexplains.extend hextends).giveAll fun o ho => ?_⟩
  obtain ⟨r, hr⟩ := hgiven o ho
  rwa [hu.record r o hr]

theorem explained_persist (h : Explained s es t) (mode : Persistence)
    (hinstances : ∀ x ∈ persisted t mode.recursive o, t.Instance x) :
    Explained s (es ++ cachedFrom mode o t) (persist mode o t).2 := by
  obtain ⟨hkeeps, H, ht, hexplains⟩ := h
  obtain ⟨hnext, hremembers⟩ := persist_remembers ht hinstances
  exact ⟨hkeeps.trans hnext, _, hremembers, hexplains.noteAll t.world _⟩

/-- What came into the cache explains what calls gave. -/
theorem explained (hs : s.Remembers H) (h : Runs s es t) : Explained s es t := by
  induction h with
  | start => exact ⟨.refl s, H, hs, .nil H⟩
  | call before c ih => exact explained_call ih c
  | @add es t before o recursive instances ih =>
    have hadd : Session.add o recursive t
        = persist { policy := t.session.policy, recursive, createOnly := true } o t :=
      bind_of_ok (get_apply t)
    rw [hadd]
    exact explained_persist ih _ instances
  | update before policy o recursive instances ih => exact explained_persist ih _ instances
  | idle before step ih =>
    obtain ⟨hkeeps, H, ht, hexplains⟩ := ih
    exact ⟨hkeeps.trans step.toKeeps, H, ht.idle step, hexplains⟩

/-- Two calls of a run that give an object of one class and id give the same object, unless another
one was persisted between them: then the second call gives the object that was cached last. -/
theorem returned_eq_cached {r : RecordRef} {o₁ o₂ : ObjectId} {before between after : List Event}
    (hnamed : s.registry.NamesTypes) (hempty : ∀ className id, s.cached? className id = none)
    (h : Runs s (before ++ .returned r o₁ :: (between ++ .returned r o₂ :: after)) t) :
    o₂ = (between.filterMap (Event.cachedFor? r)).getLastD o₁ := by
  obtain ⟨-, H, -, hexplains⟩ := h.explained (remembers_empty hnamed hempty)
  have hfirst : answer r (before ++ [.returned r o₁]) = some o₁ := by
    rw [Explains.answer_concat, Event.answer, if_pos rfl]
    cases hanswer : answer r before with
    | none => rfl
    | some x => rw [hexplains.returned before r o₁ _ rfl x hanswer]; rfl
  have hsecond : answer r (before ++ .returned r o₁ :: between)
      = some ((between.filterMap (Event.cachedFor? r)).getLastD o₁) := by
    rw [← foldl_answer_some, ← hfirst, answer, answer, ← List.foldl_append]
    simp
  exact (hexplains.returned (before ++ .returned r o₁ :: between) r o₂ after (by simp) _ hsecond).symm

end Runs

/-- The object of a record, and another object of its class and id that was made beside it. -/
def twinHydrated : Workspace := ((Call.get "Person" "a").run labelledSession).2

def twinMade : Workspace := (newObject "Person" "a" twinHydrated).2

def twinUpdated : Workspace := (updateWith .permissive ⟨1⟩ false twinMade).2

theorem namesTypes_labelledSession : labelledSession.registry.NamesTypes :=
  (Registry.current_single (h := labelled.hierarchy) (s := personSchema)
    rfl rfl).consistent.namesTypes

theorem cached?_labelledSession (className id : String) :
    labelledSession.cached? className id = none := rfl

theorem runs_twin :
    ∃ t, Runs labelledSession
      ([] ++ .returned ⟨"Person", "a"⟩ ⟨0⟩
        :: ([.cached ⟨"Person", "a"⟩ ⟨1⟩] ++ [.returned ⟨"Person", "a"⟩ ⟨1⟩])) t := by
  have hfirst : givenBy (.get "Person" "a") labelledSession = [.returned ⟨"Person", "a"⟩ ⟨0⟩] := by
    decide +kernel
  have hcached : cachedFrom { policy := .permissive, recursive := false, createOnly := false } ⟨1⟩
      twinMade = [.cached ⟨"Person", "a"⟩ ⟨1⟩] := by decide +kernel
  have hsecond : givenBy (.get "Person" "a") twinUpdated = [.returned ⟨"Person", "a"⟩ ⟨1⟩] := by
    decide +kernel
  have hmake : newObject "Person" "a" twinHydrated = (.ok ⟨1⟩, twinMade) :=
    run_of_toOption (by decide +kernel)
  have hrun := Runs.start.call (s := labelledSession) (Call.get "Person" "a")
  obtain ⟨hkeeps, -⟩ := hrun.explained
    (remembers_empty namesTypes_labelledSession cached?_labelledSession)
  have hinstance := isInstance_newObject (hkeeps.types.named namesTypes_labelledSession) hmake
  have hall := ((hrun.idle (newObject_run hmake).1).update .permissive ⟨1⟩ false fun x hx =>
    List.mem_singleton.mp hx ▸ hinstance).call (Call.get "Person" "a")
  rw [hfirst, hcached] at hall
  exact ⟨_, hsecond ▸ hall⟩

/-- The first call gives the object of the record, and the second one the other object. -/
theorem returned_eq_cached_twin :
    ∃ t, Runs labelledSession
        ([] ++ .returned ⟨"Person", "a"⟩ ⟨0⟩
          :: ([.cached ⟨"Person", "a"⟩ ⟨1⟩] ++ [.returned ⟨"Person", "a"⟩ ⟨1⟩])) t
      ∧ (⟨1⟩ : ObjectId) = ([Event.cached ⟨"Person", "a"⟩ ⟨1⟩].filterMap
        (Event.cachedFor? ⟨"Person", "a"⟩)).getLastD ⟨0⟩ := by
  obtain ⟨t, hrun⟩ := runs_twin
  exact ⟨t, hrun, hrun.returned_eq_cached namesTypes_labelledSession cached?_labelledSession⟩

/-- Calls give different objects of one class and id. -/
theorem not_returned_eq_of_runs :
    ¬ ∀ (s t : Workspace) (r : RecordRef) (o₁ o₂ : ObjectId) (before between after : List Event),
      s.registry.NamesTypes → (∀ className id, s.cached? className id = none) →
      Runs s (before ++ .returned r o₁ :: (between ++ .returned r o₂ :: after)) t → o₁ = o₂ := by
  intro hclaim
  obtain ⟨t, hrun⟩ := runs_twin
  have hsame := hclaim labelledSession t _ _ _ _ _ _ namesTypes_labelledSession
    cached?_labelledSession hrun
  exact absurd hsame (by decide)

end Session

end RecordGraph
