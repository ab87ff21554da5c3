import RecordGraph.Proofs.Object.Traversal
import RecordGraph.Proofs.Session.Preparing

/-!
Whole updates.  All records are prepared before any object is written.  What a field of a record holds
in the end is what the last of the objects wrote that were written to the record and not skipped, and
what it held before where there is none.
-/

namespace RecordGraph

open RecordGraph.Computation Workspace

namespace World

/-- The record that an object was prepared with. -/
def targetOf (w : World) (targets : Session.Targets) (o : ObjectId) : Option RecordRef :=
  (targets.get? (w.nameOf o)).map fun target => w.recordOf target.proxy

/-- The value that an object is written with to the relation of a name. -/
def fieldValue (w : World) (targets : Session.Targets) (o : ObjectId) (name : String) : Value :=
  match (w.object o).schema.relation? name with
  | some r => w.relationValue targets o r
  | none => .null

end World

namespace Session

variable {s t u : Workspace} {mode : Persistence} {targets : Targets} {os : List ObjectId}
  {o : ObjectId} {r : RecordRef} {name : String}

/-- The objects of a list that wrote a relation of a record. -/
def writers (s t : Workspace) (targets : Targets) (os : List ObjectId) (r : RecordRef)
    (name : String) : List ObjectId :=
  os.filter fun o => s.world.targetOf targets o == some r
    && ((s.world.object o).schema.relation? name).isSome && !s.skips t o name

/-- What was written while some objects were written to their records. -/
abbrev WritesAll (targets : Targets) (os : List ObjectId) (s t : Workspace) : Prop :=
  Writes
    (fun r name => ∃ o ∈ os, s.world.targetOf targets o = some r
      ∧ (s.world.object o).schema.hasField name = true)
    (fun o name => o ∈ os ∧ (s.world.object o).schema.hasField name = true) s t

/-- Objects of different names that have records to be written to. -/
structure Prepared (targets : Targets) (os : List ObjectId) (s : Workspace) : Prop where
  names : (os.map s.world.nameOf).Nodup
  named : ∀ o ∈ os, (s.world.object o).schema.WellNamed
  exist : targets.Exist s
  known : ∀ o ∈ os, targets.contains (s.world.nameOf o) = true

/-- An object with a record that no other object is to be written to. -/
structure Owns (targets : Targets) (os : List ObjectId) (s : Workspace) (o : ObjectId)
    (target : Target) : Prop where
  mem : o ∈ os
  known : targets.get? (s.world.nameOf o) = some target
  only : ∀ x ∈ os, x ≠ o → s.world.targetOf targets x ≠ some (s.world.recordOf target.proxy)

theorem prepared_of_foldlM (hnames : (os.map s.world.nameOf).Nodup)
    (hnamed : ∀ o ∈ os, (s.world.object o).schema.WellNamed)
    (hrun : os.foldlM prepare .empty s = (.ok targets, t)) :
    s.Prepares t ∧ Prepared targets os t := by
  obtain ⟨hprepares, hexist, hknown⟩ := foldlM_prepare_run hrun
  refine ⟨hprepares, ?_, ?_, hexist, ?_⟩
  · rw [funext hprepares.nameOf]
    exact hnames
  · intro x hx
    rw [hprepares.schemaOf]
    exact hnamed x hx
  · intro x hx
    rw [hprepares.nameOf]
    exact hknown x hx

/-- Writing objects one after the other: each is written to its record in its turn. -/
theorem forM_writeObject_run {done : PUnit} (P : List ObjectId → Workspace → Prop)
    (hmode : mode.createOnly = false) (hprepared : Prepared targets os s)
    (hrun : os.forM (writeObject mode targets) s = (.ok done, t)) (start : P [] s)
    (step : ∀ done o a b target, o ∈ os → s.world.nameOf o ∉ done.map s.world.nameOf →
      WritesAll targets done s a → targets.get? (s.world.nameOf o) = some target →
      Stored mode.policy targets o target.proxy a b → P done a → P (done ++ [o]) b) :
    WritesAll targets os s t ∧ P os t := by
  refine forM_run_distinct s.world.nameOf (fun done t => WritesAll targets done s t ∧ P done t)
    hprepared.names hrun ⟨.refl _ _ s, start⟩ ?_
  rintro done o a b ho hnew ⟨hbefore, hP⟩ hstep
  obtain ⟨target, htarget⟩ := Option.isSome_iff_exists.mp
    ((OrderedMap.get?_isSome targets _).trans (hprepared.known o ho))
  have hstored := writeObject_run hmode (by rw [hbefore.schemaOf]; exact hprepared.named o ho)
    (hprepared.exist.mono hbefore.proxies) (by rw [hbefore.nameOf]; exact htarget) hstep
  have hrecord := hbefore.record _ (hprepared.exist _ _ htarget)
  refine ⟨(hbefore.mono ?_ ?_).trans (hstored.writes.mono ?_ ?_),
    step done o a b target ho hnew hbefore htarget hstored hP⟩
  · rintro r name ⟨x, hx, hfield⟩
    exact ⟨x, List.mem_append_left _ hx, hfield⟩
  · exact fun x name h => ⟨List.mem_append_left _ h.1, h.2⟩
  · rintro r name ⟨rfl, hfield⟩
    refine ⟨o, List.mem_append_right _ List.mem_cons_self, ?_, hbefore.schemaOf o ▸ hfield⟩
    rw [World.targetOf, htarget, hrecord]
    rfl
  · rintro x name ⟨rfl, hfield⟩
    exact ⟨List.mem_append_right _ List.mem_cons_self, hbefore.schemaOf x ▸ hfield⟩

theorem forM_writeObject_writes {done : PUnit} (hmode : mode.createOnly = false)
    (hprepared : Prepared targets os s)
    (hrun : os.forM (writeObject mode targets) s = (.ok done, t)) : WritesAll targets os s t :=
  (forM_writeObject_run (fun _ _ => True) hmode hprepared hrun trivial
    fun _ _ _ _ _ _ _ _ _ _ _ => trivial).1

/-- An object whose name differs from those of others has a record of its own. -/
theorem nameOf_mem_of_record {a : Workspace} (h : s.Steady a) {x y : ObjectId}
    (heq : (a.world.object x).record = (a.world.object y).record) :
    s.world.nameOf x = s.world.nameOf y := by
  rw [h.recordOf, h.recordOf] at heq
  exact congrArg RecordRef.fullName heq

/-- Objects written after others do not report for them. -/
theorem writers_append {done : List ObjectId} {a b : Workspace} {target : Target} {policy : Policy}
    (hbefore : WritesAll targets done s a) (hnew : s.world.nameOf o ∉ done.map s.world.nameOf)
    (hstored : Stored policy targets o target.proxy a b) :
    writers s b targets (done ++ [o]) r name = writers s a targets done r name
      ++ if s.world.targetOf targets o = some r ∧ ((s.world.object o).schema.relation? name).isSome
        ∧ a.skips b o name = false then [o] else [] := by
  have hself : s.skips b o name = a.skips b o name := by
    rw [hbefore.skips_trans hstored.writes]
    have hsilent : s.skips a o name = false := Bool.eq_false_iff.mpr fun hskips => by
      obtain ⟨x, ⟨hx, -⟩, heq⟩ := hbefore.of_skips hskips
      have hsame : s.world.nameOf x = s.world.nameOf o := congrArg RecordRef.fullName heq
      exact hnew (hsame ▸ List.mem_map_of_mem hx)
    rw [hsilent, Bool.false_or]
  have hothers : ∀ x ∈ done, s.skips b x name = s.skips a x name := by
    intro x hx
    rw [hbefore.skips_trans hstored.writes]
    have hsilent : a.skips b x name = false := Bool.eq_false_iff.mpr fun hskips => by
      obtain ⟨_, ⟨rfl, -⟩, heq⟩ := hstored.writes.of_skips hskips
      exact hnew (nameOf_mem_of_record hbefore.toSteady heq ▸ List.mem_map_of_mem hx)
    rw [hsilent, Bool.or_false]
  unfold writers
  rw [List.filter_append]
  congr 1
  · refine List.filter_congr fun x hx => ?_
    rw [hothers x hx]
  · rw [List.filter_cons, List.filter_nil, hself]
    congr 1
    simp [and_assoc]

/-- A relation of a record holds in the end what the last object wrote that wrote it. -/
theorem forM_writeObject_relation {done : PUnit} (hmode : mode.createOnly = false)
    (hprepared : Prepared targets os s)
    (hattribute : ∀ o ∈ os, s.world.targetOf targets o = some r →
      (s.world.object o).schema.attribute? name = none)
    (hrun : os.forM (writeObject mode targets) s = (.ok done, t)) :
    s.Wrote t r name ((writers s t targets os r name).getLast?.map fun o =>
      s.world.fieldValue targets o name) := by
  refine (forM_writeObject_run (fun done t => s.Wrote t r name
    ((writers s t targets done r name).getLast?.map fun o => s.world.fieldValue targets o name))
    hmode hprepared hrun (fun _ _ => rfl) ?_).2
  intro done o a b target ho hnew hbefore htarget hstored hwrote
  have hrecord := hbefore.record _ (hprepared.exist _ _ htarget)
  have htargetOf : s.world.targetOf targets o = some (s.world.recordOf target.proxy) := by
    rw [World.targetOf, htarget]
    rfl
  rw [writers_append hbefore hnew hstored, htargetOf]
  by_cases hr : s.world.recordOf target.proxy = r
  · subst hr
    have hnone := hattribute o ho htargetOf
    cases hrelation : (s.world.object o).schema.relation? name with
    | none =>
      rw [if_neg (by simp), List.append_nil]
      apply hwrote.writes hstored.writes
      rintro ⟨-, hfield⟩
      rw [hbefore.schemaOf] at hfield
      simp [ClassSchema.hasField_iff, hnone, hrelation] at hfield
    | some relation =>
      obtain rfl := (hprepared.named o ho).relations name relation hrelation
      obtain ⟨hlast, -⟩ := hstored.relations relation
        (by rw [hbefore.schemaOf]; exact ClassSchema.mem_relations_of_relation? hrelation)
        (by rw [hbefore.schemaOf]; exact hnone)
      rw [hrecord, relationValue_eq hbefore hprepared.exist] at hlast
      cases hskips : a.skips b o relation.name with
      | true =>
        rw [hskips, if_pos rfl] at hlast
        rw [if_neg (by simp), List.append_nil]
        exact hwrote.trans_none hlast
      | false =>
        rw [hskips, if_neg (by simp)] at hlast
        rw [if_pos (by simp), List.getLast?_concat, Option.map_some, World.fieldValue, hrelation]
        exact hbefore.wrote_some hlast
  · rw [if_neg fun h => hr (Option.some.inj h.1), List.append_nil]
    apply hwrote.writes hstored.writes
    rintro ⟨heq, -⟩
    exact hr (hrecord ▸ heq.symm)

/-- What writing an object comes to for a field is what writing all objects comes to, if no other
object is written to the record. -/
theorem forM_writeObject_own {done : PUnit} {target : Target} (name : String)
    (Q : Workspace → Workspace → Prop)
    (hmode : mode.createOnly = false) (hprepared : Prepared targets os s)
    (howns : Owns targets os s o target)
    (hrun : os.forM (writeObject mode targets) s = (.ok done, t))
    (own : ∀ a b, s.Steady a → Stored mode.policy targets o target.proxy a b → Q a b)
    (before : ∀ W P a b, Writes W P s a → ¬ W (s.world.recordOf target.proxy) name → Q a b → Q s b)
    (after : ∀ W P a b, Writes W P a b → ¬ W (s.world.recordOf target.proxy) name → Q s a → Q s b) :
    Q s t := by
  refine (forM_writeObject_run (fun done t => (∀ x ∈ done, x ∈ os) ∧ (o ∈ done → Q s t))
    hmode hprepared hrun ⟨by simp, by simp⟩ ?_).2.2 howns.mem
  rintro done x a b other hx hnew hbefore hother hstored ⟨hall, hdone⟩
  refine ⟨fun y hy => ?_, fun hmem => ?_⟩
  · rcases List.mem_append.mp hy with hy | hy
    · exact hall y hy
    · exact List.mem_singleton.mp hy ▸ hx
  · by_cases heq : x = o
    · subst heq
      cases howns.known.symm.trans hother
      refine before _ _ a b hbefore ?_ (own a b hbefore.toSteady hstored)
      rintro ⟨y, hy, htargetOf, -⟩
      refine howns.only y (hall y hy) ?_ htargetOf
      rintro rfl
      exact hnew (List.mem_map_of_mem hy)
    · rcases List.mem_append.mp hmem with hmem | hmem
      · refine after _ _ a b hstored.writes ?_ (hdone hmem)
        rintro ⟨hrecord, -⟩
        rw [hbefore.record _ (hprepared.exist _ _ hother)] at hrecord
        apply howns.only x hx heq
        rw [World.targetOf, hother, hrecord]
        rfl
      · exact absurd (List.mem_singleton.mp hmem).symm heq

/-- An attribute of a record that no other object is written to holds in the end what writing the
object came to. -/
theorem forM_writeObject_attribute {done : PUnit} {target : Target} (hmode : mode.createOnly = false)
    (hprepared : Prepared targets os s) (howns : Owns targets os s o target)
    (hname : name ∈ (s.world.object o).schema.attributes.keys)
    (hnone : (s.world.object o).schema.relation? name = none)
    (hrun : os.forM (writeObject mode targets) s = (.ok done, t)) :
    ∃ f, (s.world.object o).reads name = .ok f
      ∧ AttributeStored mode.policy target.proxy name s t f := by
  refine forM_writeObject_own name (fun a b => ∃ f, (a.world.object o).reads name = .ok f
    ∧ AttributeStored mode.policy target.proxy name a b f)
    hmode hprepared howns hrun ?_ ?_ ?_
  · intro a b hsteady hstored
    exact hstored.attributes name (by rw [hsteady.schemaOf]; exact hname)
      (by rw [hsteady.schemaOf]; exact hnone)
  · rintro W P a b hwrites hW ⟨f, hreads, hattribute⟩
    exact ⟨f, ((hwrites.alike o).reads name).symm.trans hreads,
      hattribute.of_writes hwrites hW (hprepared.exist _ _ howns.known)⟩
  · rintro W P a b hwrites hW ⟨f, hreads, hattribute⟩
    exact ⟨f, hreads, hattribute.writes hwrites hW⟩

/-- A relation of a record that no other object is written to holds in the end the records of what the
object's relation reads as, if nothing may be skipped. -/
theorem forM_writeObject_ownRelation {done : PUnit} {target : Target} {relation : Relation}
    (hmode : mode.createOnly = false) (hpolicy : mode.policy = .pedantic)
    (hprepared : Prepared targets os s) (howns : Owns targets os s o target)
    (hrelation : relation ∈ (s.world.object o).schema.relations.values)
    (hnone : (s.world.object o).schema.attribute? relation.name = none)
    (hrun : os.forM (writeObject mode targets) s = (.ok done, t)) :
    s.Wrote t (s.world.recordOf target.proxy) relation.name
      (some (s.world.relationValue targets o relation)) := by
  have hp := hprepared.exist _ _ howns.known
  refine forM_writeObject_own relation.name (fun a b =>
    a.Wrote b (a.world.recordOf target.proxy) relation.name
      (some (a.world.relationValue targets o relation)))
    hmode hprepared howns hrun ?_ ?_ ?_
  · intro a b hsteady hstored
    obtain ⟨hwrote, hskips⟩ := hstored.relations relation
      (by rw [hsteady.schemaOf]; exact hrelation) (by rw [hsteady.schemaOf]; exact hnone)
    rw [hpolicy] at hskips
    rwa [if_neg fun h => by cases hskips h] at hwrote
  · intro W P a b hwrites hW hwrote
    rw [hwrites.record _ hp, relationValue_eq hwrites hprepared.exist] at hwrote
    exact hwrites.wrote_some hwrote
  · exact fun W P a b hwrites hW hwrote => hwrote.writes hwrites hW

/-! ### Updates -/

/-- The objects that an update persists. -/
def persisted (s : Workspace) (recursive : Bool) (o : ObjectId) : List ObjectId :=
  if recursive then s.world.traverse o else [o]

theorem nodup_persisted (s : Workspace) (recursive : Bool) (o : ObjectId) :
    ((persisted s recursive o).map s.world.nameOf).Nodup := by
  cases recursive with
  | true => exact s.world.nodup_names_traverse o
  | false => simp [persisted]

/-- The proxy of an object that was persisted. -/
def rootProxy (targets : Targets) (o : ObjectId) : SessionM ProxyId := do
  let name := (← get).world.nameOf o
  match targets.get? name with
  | some target => pure target.proxy
  | none => throw (.objectNotFound name)

theorem reads_rootProxy (targets : Targets) (o : ObjectId) : Reads (rootProxy targets o) := by
  refine reads_get.bind fun s => ?_
  dsimp only
  split
  · exact fun _ => rfl
  · exact reads_throw _

theorem persist_apply (mode : Persistence) (o : ObjectId) (s : Workspace) :
    persist mode o s = ((persisted s mode.recursive o).foldlM prepare .empty >>= fun targets =>
      (persisted s mode.recursive o).forM (writeObject mode targets) >>= fun _ =>
        rootProxy targets o) s := by
  rw [persist, bind_of_ok (get_apply s)]
  rfl

/-- An update prepares all records, and then writes all objects. -/
theorem persist_run {p : ProxyId} (hrun : persist mode o s = (.ok p, t)) :
    ∃ targets u, (persisted s mode.recursive o).foldlM prepare .empty s = (.ok targets, u)
      ∧ (persisted s mode.recursive o).forM (writeObject mode targets) u = (.ok (), t)
      ∧ ∃ target, targets.get? (t.world.nameOf o) = some target ∧ p = target.proxy := by
  rw [persist, bind_of_ok (get_apply s)] at hrun
  obtain ⟨targets, u, hprepare, hrun⟩ := bind_eq_ok.mp hrun
  obtain ⟨_, t', hwrite, hrun⟩ := bind_eq_ok.mp hrun
  rw [bind_of_ok (get_apply t')] at hrun
  refine ⟨targets, u, hprepare, ?_⟩
  cases htarget : targets.get? (t'.world.nameOf o) with
  | none => simp [htarget] at hrun
  | some target =>
    simp only [htarget] at hrun
    obtain ⟨heq, rfl⟩ := Prod.mk.inj hrun
    cases heq
    exact ⟨hwrite, target, htarget, rfl⟩

/-- When an update keeps what is stored for a relation.  Every persisted object writes the relations
that its record has, whether they were written to or not; the stored value stays the same exactly when
the last of them that was not skipped wrote what was stored already. -/
theorem updateWith_relation_kept_iff {policy : Policy} {recursive : Bool} {p : ProxyId}
    (hnamed : ∀ x ∈ persisted s recursive o, (s.world.object x).schema.WellNamed)
    (hrun : updateWith policy o recursive s = (.ok p, t)) :
    ∃ targets u, (persisted s recursive o).foldlM prepare .empty s = (.ok targets, u)
      ∧ ((∀ x ∈ persisted s recursive o, (s.world.object x).oldId = none) → s.Adds u)
      ∧ ∀ r name, (∀ x ∈ persisted s recursive o, u.world.targetOf targets x = some r →
          (s.world.object x).schema.attribute? name = none) →
        ∀ place multi, u.world.store.location r = some place →
          (t.world.store.stored place r name multi = s.world.store.stored place r name multi ↔
            (match (writers u t targets (persisted s recursive o) r name).getLast? with
              | some x => (u.world.fieldValue targets x name).orEmpty multi
              | none => u.world.store.stored place r name multi)
              = s.world.store.stored place r name multi) := by
  obtain ⟨targets, u, hprepare, hwrite, -⟩ := persist_run hrun
  obtain ⟨hprepares, hprepared⟩ := prepared_of_foldlM (nodup_persisted s recursive o) hnamed hprepare
  refine ⟨targets, u, hprepare, fun hold => foldlM_prepare_adds hold hprepare, ?_⟩
  intro r name hattribute place multi hplace
  have hwrote := forM_writeObject_relation rfl hprepared
    (fun x hx htarget => by rw [hprepares.schemaOf]; exact hattribute x hx htarget) hwrite
  cases hlast : (writers u t targets (persisted s recursive o) r name).getLast? with
  | none =>
    rw [hlast] at hwrote
    rw [hwrote place multi]
  | some x =>
    rw [hlast] at hwrote
    rw [hwrote place multi, if_pos hplace]

/-- A record that leads to one whose database is no longer included. -/
def severed : Store :=
  { schemas := .insert .empty "people" { classes := [{
      name := "Person"
      attributes := [{ name := "note", type := "string" }]
      relations := [{ name := "peer", target := "Person" }] }] }
    databases := .ofList [
      ("near", {
        includes := ["people"]
        records := .insert .empty ⟨"Person", "a"⟩
          (.insert .empty "peer" (.record ⟨"Person", "b"⟩)) }),
      ("far", { records := .insert .empty ⟨"Person", "b"⟩ .empty })]
    loaded := ["near"] }

def personSchema : ClassSchema :=
  { name := "Person"
    attributes := .insert .empty "note" {
      name := "note", type := .text .string, multivalue := false, notNull := false
      rangeSource := none, initialSource := none, description := ""
      binding := some { range := .unbounded } }
    relations := .insert .empty "peer" {
      name := "peer", target := "Person", multivalue := false, notNull := false
      aggregation := false, description := "" } }

def severedSession : Workspace :=
  { session := { registry := ⟨0⟩, active := some "near" }
    world := { store := severed, registries := Arena.empty.push (.single ⟨0⟩ personSchema) } }

/-- Writing fields of an object one after the other. -/
def setAll (o : ObjectId) (fields : List (String × Field)) : SessionM Unit :=
  fields.forM fun e => act (o.set e.1 e.2)

def severedHydrated : Workspace := (getObject "Person" "a" severedSession).2

def severedNoted : Workspace := (setAll ⟨0⟩ [("note", .value (.text "x"))] severedHydrated).2

def severedUpdated : Workspace := (updateWith .permissive ⟨0⟩ false severedNoted).2

/-- The update of an object empties a relation that was never written to. -/
theorem severed_relation_lost :
    (severedNoted.world.store.stored "near" ⟨"Person", "a"⟩ "peer" false).isNull = false
      ∧ (severedUpdated.world.store.stored "near" ⟨"Person", "a"⟩ "peer" false).isNull = true := by
  decide +kernel

/-- What the object is written with then is not what is stored: the relation shows nothing. -/
theorem updateWith_relation_kept_iff_severed :
    ∃ p t, updateWith .permissive ⟨0⟩ false severedNoted = (.ok p, t)
      ∧ ∃ targets u, [⟨0⟩].foldlM prepare .empty severedNoted = (.ok targets, u)
        ∧ (match (writers u t targets [⟨0⟩] ⟨"Person", "a"⟩ "peer").getLast? with
            | some x => (u.world.fieldValue targets x "peer").orEmpty false
            | none => u.world.store.stored "near" ⟨"Person", "a"⟩ "peer" false)
          ≠ severedNoted.world.store.stored "near" ⟨"Person", "a"⟩ "peer" false := by
  obtain ⟨p, hrun⟩ := run_of_isOk (m := updateWith .permissive ⟨0⟩ false)
    (s := severedNoted) (by decide +kernel)
  obtain ⟨targets, u, hprepare, hadds, hkept⟩ := updateWith_relation_kept_iff
    (by decide +kernel) hrun
  have hlocation := (hadds (by decide +kernel)).location ⟨"Person", "a"⟩ (by decide +kernel)
  refine ⟨p, _, hrun, targets, u, hprepare, fun heq => ?_⟩
  have hattribute : ∀ x ∈ persisted severedNoted false ⟨0⟩,
      (severedNoted.world.object x).schema.attribute? "peer" = none := by
    intro x hx
    obtain rfl := List.mem_singleton.mp hx
    exact Option.isNone_iff_eq_none.mp (by decide +kernel)
  have hsame := (hkept ⟨"Person", "a"⟩ "peer" (fun x hx _ => hattribute x hx) "near" false
    (hlocation.trans (by decide +kernel))).mpr heq
  obtain ⟨hbefore, hafter⟩ := severed_relation_lost
  rw [severedUpdated, hsame, hbefore] at hafter
  exact absurd hafter (by simp)

/-- An update alters a relation that nobody wrote to since the object was hydrated. -/
theorem not_relation_kept_of_untouched :
    ¬ ∀ (base s t u : Workspace) (className id : String) (o : ObjectId) (p : ProxyId)
      (fields : List (String × Field)) (policy : Policy) (recursive : Bool),
      getObject className id base = (.ok o, s) →
      setAll o fields s = (.ok (), t) →
      updateWith policy o recursive t = (.ok p, u) →
      ∀ r ∈ (t.world.object o).schema.relations.values, r.name ∉ (t.world.object o).touched →
        ∀ place, u.world.store.stored place (t.world.object o).record r.name r.multivalue
          = t.world.store.stored place (t.world.object o).record r.name r.multivalue := by
  intro hclaim
  have hget := run_of_toOption (m := getObject "Person" "a") (s := severedSession) (a := ⟨0⟩)
    (by decide +kernel)
  obtain ⟨_, hset⟩ := run_of_isOk (m := setAll ⟨0⟩ [("note", .value (.text "x"))])
    (s := severedHydrated) (by decide +kernel)
  obtain ⟨p, hupdate⟩ := run_of_isOk (m := updateWith .permissive ⟨0⟩ false) (s := severedNoted)
    (by decide +kernel)
  have hrelation : ((severedNoted.world.object ⟨0⟩).schema.relation? "peer").map
      (fun r => (r.name, r.multivalue)) = some ("peer", false) := by decide +kernel
  obtain ⟨r, hr, heq⟩ := Option.map_eq_some_iff.mp hrelation
  obtain ⟨hname, hmulti⟩ := Prod.mk.inj heq
  have htouched : "peer" ∉ (severedNoted.world.object ⟨0⟩).touched := by decide +kernel
  have hkept := hclaim severedSession severedHydrated severedNoted severedUpdated _ _ _ _ _ _ _
    hget hset hupdate r (ClassSchema.mem_relations_of_relation? hr) (hname ▸ htouched) "near"
  have hrecord : (severedNoted.world.object ⟨0⟩).record = ⟨"Person", "a"⟩ := by decide +kernel
  obtain ⟨hbefore, hafter⟩ := severed_relation_lost
  rw [hrecord, hname, hmulti] at hkept
  rw [hkept, hbefore] at hafter
  exact absurd hafter (by simp)

end Session

end RecordGraph
