import RecordGraph.Proofs.Session.Destroying
import RecordGraph.Proofs.Session.Idling
import RecordGraph.Proofs.Store.Lineage

/-!
The indexes of the cache.  An object is cached for its own class and for every class above, under its id.
What is listed for a class belongs to it, but an index has room for one object with an id: an object that
is cached takes the place of another one there, and that one may stay where it is for its own class.  So
the indexes agree as long as whatever loses its place in one of them loses it for its own class as well.
-/

namespace RecordGraph

open RecordGraph.Computation

namespace Workspace

variable {s t : Workspace} {o p : ObjectId} {className id : String}

/-- An object is found under its own class and id. -/
def AtHome (s : Workspace) (o : ObjectId) : Prop :=
  s.cached? (s.world.object o).className (s.world.object o).id = some o

instance (s : Workspace) (o : ObjectId) : Decidable (s.AtHome o) :=
  inferInstanceAs (Decidable (_ = some o))

/-- An object that is found under its own class and id is listed for every class that it belongs to. -/
def Agrees (s : Workspace) : Prop :=
  ∀ o, s.AtHome o → ∀ className ∈ s.classesOf o, o ∈ s.session.cache.objectsOf className

/-- What is listed for a class belongs to it. -/
def Classed (s : Workspace) : Prop :=
  ∀ className, ∀ o ∈ s.session.cache.objectsOf className, className ∈ s.classesOf o

/-- Whatever an object takes the place of in an index, it takes the place of for its own class as well:
an object that is at home and cached under the same id for a class in common is of one of the classes
that the new one belongs to. -/
def Supersedes (s : Workspace) (p : ObjectId) : Prop :=
  ∀ className ∈ s.classesOf p, ∀ o ∈ s.cached? className (s.world.object p).id,
    s.AtHome o → (s.world.object o).className ∈ s.classesOf p

instance (s : Workspace) (p : ObjectId) : Decidable (s.Supersedes p) :=
  inferInstanceAs (Decidable (∀ className ∈ s.classesOf p,
    ∀ o ∈ s.cached? className (s.world.object p).id, _ → _))

/-- Every cached object exists, and is cached for classes that it belongs to and under its id. -/
structure Shelved (s : Workspace) : Prop where
  bound : ∀ className id o, s.cached? className id = some o → o.index < s.world.objects.size
  belongs : ∀ className id o, s.cached? className id = some o → className ∈ s.classesOf o
  current : ∀ className id o, s.cached? className id = some o → (s.world.object o).id = id

theorem shelved_empty (h : ∀ className id, s.cached? className id = none) : s.Shelved := by
  refine ⟨fun className id o ho => ?_, fun className id o ho => ?_, fun className id o ho => ?_⟩ <;>
    exact absurd ((h className id).symm.trans ho) (Option.some_ne_none o).symm

theorem mem_objectsOf_iff :
    o ∈ s.session.cache.objectsOf className ↔ ∃ id, s.cached? className id = some o :=
  ⟨OrderedMap.exists_get?_of_mem_values, fun ⟨_, ho⟩ => OrderedMap.mem_values_of_get? ho⟩

theorem className_mem_classesOf (s : Workspace) (o : ObjectId) :
    (s.world.object o).className ∈ s.classesOf o := ClassType.name_mem_names _

/-! ### What each step keeps -/

namespace Shelved

variable (h : s.Shelved)

include h

/-- A listed object is listed under its id. -/
theorem mem_objectsOf_iff :
    o ∈ s.session.cache.objectsOf className ↔ s.cached? className (s.world.object o).id = some o := by
  rw [Workspace.mem_objectsOf_iff]
  constructor
  · rintro ⟨id, ho⟩
    rwa [h.current className id o ho]
  · exact fun ho => ⟨_, ho⟩

theorem classed : s.Classed := by
  intro className o ho
  exact h.belongs className _ o (h.mem_objectsOf_iff.mp ho)

theorem agrees_iff :
    s.Agrees ↔ ∀ o, s.AtHome o → ∀ className ∈ s.classesOf o,
      s.cached? className (s.world.object o).id = some o := by
  unfold Agrees
  simp only [h.mem_objectsOf_iff]

/-- Nothing comes into the cache, and what is cached keeps its type and its id. -/
theorem mono (hobjects : s.world.objects.size ≤ t.world.objects.size)
    (hcached : ∀ className id o, t.cached? className id = some o → s.cached? className id = some o)
    (hheader : ∀ o : ObjectId, o.index < s.world.objects.size →
      (t.world.object o).type = (s.world.object o).type
        ∧ (t.world.object o).id = (s.world.object o).id) : t.Shelved where
  bound className id o ho :=
    Nat.lt_of_lt_of_le (h.bound className id o (hcached className id o ho)) hobjects
  belongs className id o ho := by
    have hold := hcached className id o ho
    rw [classesOf, (hheader o (h.bound className id o hold)).1]
    exact h.belongs className id o hold
  current className id o ho := by
    have hold := hcached className id o ho
    rw [(hheader o (h.bound className id o hold)).2]
    exact h.current className id o hold

theorem idle (hidles : s.Idles t) : t.Shelved := by
  refine h.mono hidles.objects (fun className id o ho => ?_) fun o ho => ?_
  · rwa [hidles.cached?] at ho
  · obtain ⟨htype, hid, -⟩ := hidles.header o ho
    exact ⟨htype, hid⟩

theorem evict (o : ObjectId) (id : String) : (s.evict o id).Shelved := by
  refine h.mono (Nat.le_refl _) (fun className id' x hx => ?_) fun _ _ => ⟨rfl, rfl⟩
  exact Session.cached?_of_evict hx

theorem cache (hp : p.index < s.world.objects.size) : (s.cache p).Shelved := by
  refine ⟨fun className id o ho => ?_, fun className id o ho => ?_, fun className id o ho => ?_⟩
  · rcases cached?_cache_eq_some ho with ⟨rfl, -⟩ | hold
    · exact hp
    · exact h.bound className id o hold
  · rcases cached?_cache_eq_some ho with ⟨rfl, hclass, -⟩ | hold
    · exact hclass
    · exact h.belongs className id o hold
  · rcases cached?_cache_eq_some ho with ⟨rfl, -, hid⟩ | hold
    · exact hid.symm
    · exact h.current className id o hold

/-- The indexes agree as long as nothing is cached. -/
theorem agrees_idle (hagrees : s.Agrees) (hidles : s.Idles t) : t.Agrees := by
  rw [(h.idle hidles).agrees_iff]
  rw [h.agrees_iff] at hagrees
  intro o hhome className hclass
  have hcached := hhome
  rw [AtHome, hidles.cached?] at hcached
  obtain ⟨htype, hid, -⟩ := hidles.header o (h.bound _ _ o hcached)
  have hold : s.AtHome o := by
    rwa [Object.className, htype, hid] at hcached
  rw [classesOf, htype] at hclass
  rw [hidles.cached?, hid]
  exact hagrees o hold className hclass

/-- An object that leaves the cache leaves all of its indexes. -/
theorem agrees_evict (hagrees : s.Agrees) (p : ObjectId) (id : String) :
    (s.evict p id).Agrees := by
  rw [(h.evict p id).agrees_iff]
  rw [h.agrees_iff] at hagrees
  intro o hhome className hclass
  have hcached := hhome
  rw [AtHome, Session.cached?_evict] at hcached
  split at hcached
  · cases hcached
  · rename_i hkept
    have hthere := hagrees o hcached className hclass
    rw [Session.cached?_evict, if_neg]
    · exact hthere
    · -- what is taken out is the object itself, which would not be at home any more
      rintro ⟨-, hid, hsame⟩
      have hid' : (s.world.object o).id = id := hid
      rw [← hid', hthere] at hsame
      obtain rfl : o = p := Option.some.inj hsame
      exact hkept ⟨s.className_mem_classesOf o, hid, hid' ▸ hcached⟩

/-- Caching an object lets the indexes agree exactly if it supersedes what it takes the place of. -/
theorem agrees_cache_iff (hagrees : s.Agrees) (hp : p.index < s.world.objects.size) :
    (s.cache p).Agrees ↔ s.Supersedes p := by
  rw [(h.cache hp).agrees_iff]
  rw [h.agrees_iff] at hagrees
  constructor
  · intro hnext className hclass o ho hhome
    refine Decidable.byContradiction fun hforeign => ?_
    have hid := h.current className _ o ho
    have hstays : (s.cache p).AtHome o :=
      (cached?_cache s p _ _).trans ((if_neg fun hmoved => hforeign hmoved.1).trans hhome)
    have hlost : (s.cache p).cached? className (s.world.object o).id = some p :=
      (cached?_cache s p _ _).trans (if_pos ⟨hclass, hid⟩)
    cases hlost.symm.trans (hnext o hstays className (h.belongs className _ o ho))
    exact hforeign (s.className_mem_classesOf p)
  · intro hsupersedes o hhome className hclass
    have hcached := hhome
    rw [AtHome, cached?_cache] at hcached
    rw [cached?_cache]
    split at hcached
    · -- the object itself comes into each of its indexes
      cases hcached
      exact if_pos ⟨hclass, rfl⟩
    · rename_i hapart
      have hthere := hagrees o hcached className hclass
      rw [if_neg]
      · exact hthere
      · rintro ⟨hshared, hid⟩
        have hid' : (s.world.object o).id = (s.world.object p).id := hid
        exact hapart ⟨hsupersedes className hshared o (hid' ▸ hthere) hcached, hid⟩

end Shelved

/-! ### Runs -/

/-- What is asked of the cache, and what happens to the session between that. -/
inductive CacheStep
  | cache (o : ObjectId)
  | evict (o : ObjectId)
  | evictId (o : ObjectId) (id : String)
  /-- Anything that neither caches nor renames objects. -/
  | idle (step : Workspace → Workspace) (idles : ∀ s : Workspace, s.Idles (step s))

namespace CacheStep

variable {P : Workspace → CacheStep → Prop} {steps : List CacheStep}

/-- What a step makes of a workspace. -/
def run (s : Workspace) : CacheStep → Workspace
  | .cache o => s.cache o
  | .evict o => s.evict o (s.world.object o).id
  | .evictId o id => s.evict o id
  | .idle step _ => step s

/-- An object that a step caches was made. -/
def Exists (s : Workspace) : CacheStep → Prop
  | .cache o => o.index < s.world.objects.size
  | .evict _ | .evictId _ _ | .idle _ _ => True

instance (s : Workspace) : (step : CacheStep) → Decidable (step.Exists s)
  | .cache o => inferInstanceAs (Decidable (o.index < s.world.objects.size))
  | .evict _ | .evictId _ _ | .idle _ _ => isTrue trivial

/-- An object that a step caches supersedes what it takes the place of. -/
def Considerate (s : Workspace) : CacheStep → Prop
  | .cache o => s.Supersedes o
  | .evict _ | .evictId _ _ | .idle _ _ => True

instance (s : Workspace) : (step : CacheStep) → Decidable (step.Considerate s)
  | .cache o => inferInstanceAs (Decidable (s.Supersedes o))
  | .evict _ | .evictId _ _ | .idle _ _ => isTrue trivial

/-- A condition holds of each of some steps in its turn. -/
def All (P : Workspace → CacheStep → Prop) : Workspace → List CacheStep → Prop
  | _, [] => True
  | s, step :: steps => P s step ∧ All P (step.run s) steps

instance decidableAll {P : Workspace → CacheStep → Prop} [∀ s step, Decidable (P s step)]
    (s : Workspace) : (steps : List CacheStep) → Decidable (All P s steps)
  | [] => isTrue trivial
  | step :: steps =>
    letI := decidableAll (P := P) (step.run s) steps
    inferInstanceAs (Decidable (P s step ∧ All P (step.run s) steps))

theorem shelved_run (step : CacheStep) (h : s.Shelved) (hexists : step.Exists s) :
    (step.run s).Shelved := by
  cases step with
  | cache o => exact h.cache hexists
  | evict o => exact h.evict o _
  | evictId o id => exact h.evict o id
  | idle step idles => exact h.idle (idles s)

/-- The indexes go on to agree after a considerate step, and only then. -/
theorem agrees_run_iff (step : CacheStep) (h : s.Shelved) (hagrees : s.Agrees)
    (hexists : step.Exists s) : (step.run s).Agrees ↔ step.Considerate s := by
  cases step with
  | cache o => exact h.agrees_cache_iff hagrees hexists
  | evict o => exact iff_of_true (h.agrees_evict hagrees o _) trivial
  | evictId o id => exact iff_of_true (h.agrees_evict hagrees o id) trivial
  | idle step idles => exact iff_of_true (h.agrees_idle hagrees (idles s)) trivial

/-- Only objects of a class are listed for it, whatever the steps are. -/
theorem all_classed (h : s.Shelved) (hexist : All (fun t step => step.Exists t) s steps) :
    All (fun t step => (step.run t).Classed) s steps := by
  induction steps generalizing s with
  | nil => trivial
  | cons step steps ih =>
    have hnext := step.shelved_run h hexist.1
    exact ⟨hnext.classed, ih hnext hexist.2⟩

/-- The indexes agree all along a run of considerate steps, and of no other one. -/
theorem all_agrees_iff (h : s.Shelved) (hagrees : s.Agrees)
    (hexist : All (fun t step => step.Exists t) s steps) :
    All (fun t step => (step.run t).Agrees) s steps
      ↔ All (fun t step => step.Considerate t) s steps := by
  induction steps generalizing s with
  | nil => exact Iff.rfl
  | cons step steps ih =>
    rw [All, All, step.agrees_run_iff h hagrees hexist.1]
    refine and_congr_right fun hconsiderate => ?_
    have hnext := (step.agrees_run_iff h hagrees hexist.1).mpr hconsiderate
    exact ih (step.shelved_run h hexist.1) hnext hexist.2

end CacheStep

/-- From an empty cache on, whatever is cached and taken out again while ids stay, only objects of a
class are listed for it.  An object that is found under its own class and id is listed for every class
that it belongs to, all along the run, exactly if each object that is cached supersedes what it takes the
place of in an index. -/
theorem agrees_throughout_iff (steps : List CacheStep)
    (hempty : ∀ className id, s.cached? className id = none)
    (hexist : CacheStep.All (fun t step => step.Exists t) s steps) :
    (s.Classed ∧ CacheStep.All (fun t step => (step.run t).Classed) s steps)
      ∧ s.Agrees
      ∧ (CacheStep.All (fun t step => (step.run t).Agrees) s steps
        ↔ CacheStep.All (fun t step => step.Considerate t) s steps) := by
  have hshelved := shelved_empty hempty
  have hagrees : s.Agrees := fun o hhome =>
    absurd ((hempty _ _).symm.trans hhome) (Option.some_ne_none o).symm
  exact ⟨⟨hshelved.classed, CacheStep.all_classed hshelved hexist⟩, hagrees,
    CacheStep.all_agrees_iff hshelved hagrees hexist⟩

/-- A session with nothing cached beside some objects. -/
def beside (objects : List Object) : Workspace where
  session := { registry := ⟨0⟩ }
  world := { registries := Arena.empty.push {}, objects := ⟨objects.toArray⟩ }

/-- A type without fields. -/
def plainType (name : String) (bases : List ClassType) : ClassType :=
  { schema := { name }, bases, home := ⟨0⟩ }

def baseType : ClassType := plainType "Base" []

def leftType : ClassType := plainType "Left" [baseType]

def rightType : ClassType := plainType "Right" [baseType]

/-- Two equal objects of a class with two superclasses, and an object of one of these. -/
def diamond : Workspace :=
  beside [{ type := plainType "Both" [leftType, rightType], id := "x" },
    { type := plainType "Both" [leftType, rightType], id := "x" }, { type := leftType, id := "y" }]

/-- The objects are cached and taken out again, and one is written to. -/
def diamondSteps : List CacheStep :=
  [.cache ⟨0⟩, .cache ⟨2⟩, .cache ⟨1⟩, .evictId ⟨0⟩ "x",
    .idle (fun s => (Session.act (ObjectId.set ⟨1⟩ "note" .unset) s).2)
      fun s => Session.idles_set s ⟨1⟩ .unset (by decide),
    .evict ⟨2⟩, .cache ⟨0⟩, .evictId ⟨0⟩ "y", .cache ⟨2⟩]

/-- Each object supersedes the equal one in all indexes, and the indexes agree all along. -/
theorem agrees_throughout_iff_diamond :
    CacheStep.All (fun t step => step.Exists t) diamond diamondSteps
      ∧ (diamondSteps.foldl CacheStep.run diamond).session.cache.objectsOf "Base" = [⟨0⟩, ⟨2⟩]
      ∧ (diamondSteps.foldl CacheStep.run diamond).session.cache.objectsOf "Right" = [⟨0⟩]
      ∧ CacheStep.All (fun t step => (step.run t).Classed) diamond diamondSteps
      ∧ CacheStep.All (fun t step => (step.run t).Agrees) diamond diamondSteps := by
  have hexist : CacheStep.All (fun t step => step.Exists t) diamond diamondSteps := by
    decide +kernel
  have hconsiderate : CacheStep.All (fun t step => step.Considerate t) diamond diamondSteps := by
    decide +kernel
  obtain ⟨⟨-, hclassed⟩, -, hiff⟩ := agrees_throughout_iff diamondSteps (fun _ _ => rfl) hexist
  exact ⟨hexist, by decide +kernel, by decide +kernel, hclassed, hiff.mpr hconsiderate⟩

/-- Two objects with one id, of classes side by side below one class. -/
def sideBySide : Workspace :=
  beside [{ type := leftType, id := "x" }, { type := rightType, id := "x" }]

theorem shows_sideBySide {o : ObjectId} (ho : o.index < sideBySide.world.objects.size) :
    (sideBySide.world.object o).type.Shows Store.siblings.hierarchy := by
  have hbase : baseType.Shows Store.siblings.hierarchy :=
    .intro (d := { name := "Base" }) rfl rfl fun _ hb => absurd hb List.not_mem_nil
  have hside : ∀ b ∈ [baseType], b.Shows Store.siblings.hierarchy := fun _ hb =>
    List.mem_singleton.mp hb ▸ hbase
  obtain ⟨i⟩ := o
  match i, ho with
  | 0, _ => exact .intro (d := { name := "Left", superclasses := ["Base"] }) rfl rfl hside
  | 1, _ => exact .intro (d := { name := "Right", superclasses := ["Base"] }) rfl rfl hside

/-- The object that is cached last takes the place of the other one for the class above both, where that
one stays for its own class. -/
theorem not_agrees_of_sideBySide :
    ¬ ∀ (h : Hierarchy) (s : Workspace) (steps : List CacheStep), h.Acyclic →
      (∀ o : ObjectId, o.index < s.world.objects.size → (s.world.object o).type.Shows h) →
      (∀ className id, s.cached? className id = none) →
      CacheStep.All (fun t step => step.Exists t) s steps →
      (steps.foldl CacheStep.run s).Agrees := by
  intro hclaim
  have hagrees := hclaim Store.siblings.hierarchy sideBySide [.cache ⟨0⟩, .cache ⟨1⟩]
    (by decide +kernel) (fun _ => shows_sideBySide) (fun _ _ => rfl) (by decide +kernel)
  exact absurd (hagrees ⟨0⟩ (by decide +kernel) "Base" (by decide +kernel)) (by decide +kernel)

end Workspace

end RecordGraph
