import RecordGraph.Proofs.Session.Building
import RecordGraph.Proofs.Session.Restoring

/-!
The round trip of new object graphs: a graph that was built in a session and updated as a whole can be
had back from the store by a later session, up to which objects it is made of.
-/

namespace RecordGraph

open RecordGraph.Computation

/-- The field with other objects in the places of its targets. -/
def Field.mapTargets (f : ObjectId → ObjectId) : Field → Field
  | .object target => .object (f target)
  | .objects targets => .objects (targets.map f)
  | g => g

theorem Field.mapTargets_ofTargets (f : ObjectId → ObjectId) (multivalue : Bool)
    (os : List ObjectId) :
    (Field.ofTargets multivalue os).mapTargets f = .ofTargets multivalue (os.map f) := by
  cases multivalue with
  | true => rfl
  | false =>
    simp only [Field.ofTargets, Bool.false_eq_true, if_false, List.getLast?_map]
    cases os.getLast? <;> rfl

theorem Field.targets_mapTargets (f : ObjectId → ObjectId) (g : Field) :
    (g.mapTargets f).targets = g.targets.map f := by
  cases g <;> rfl

namespace World

/-- The graphs that two objects lead to are the same but for the objects that they are made of:
corresponding objects have the same class and id, their relations lead to corresponding objects in the
same order, and their attributes read the same. -/
structure Isomorphic (v : World) (root : ObjectId) (w : World) (root' : ObjectId)
    (f : ObjectId → ObjectId) : Prop where
  start : f root = root'
  reaches : ∀ x, v.Reaches root x → w.Reaches root' (f x)
  injective : ∀ x y, v.Reaches root x → v.Reaches root y → f x = f y → x = y
  surjective : ∀ y, w.Reaches root' y → ∃ x, v.Reaches root x ∧ f x = y
  record : ∀ x, v.Reaches root x → (w.object (f x)).record = (v.object x).record
  schema : ∀ x, v.Reaches root x → (w.object (f x)).schema = (v.object x).schema
  relations : ∀ x, v.Reaches root x → ∀ r ∈ (v.object x).schema.relations.values,
    (w.object (f x)).reads r.name = ((v.object x).reads r.name).map (Field.mapTargets f)
  attributes : ∀ x, v.Reaches root x → ∀ name a, (v.object x).schema.attribute? name = some a →
    a.type ≠ .float → (w.object (f x)).reads name = (v.object x).reads name

end World

namespace Session

open Workspace

variable {base s t u : Workspace} {root o x y : ObjectId} {os : List ObjectId} {steps : List BuildStep}

/-- A graph of objects made since a workspace, none of which stands in the way of another or of a
visible record. -/
structure NewGraph (base s : Workspace) (root : ObjectId) : Prop where
  new : ∀ x, s.world.Reaches root x →
    base.world.objects.size ≤ x.index ∧ x.index < s.world.objects.size
  names : ∀ x y, s.world.Reaches root x → s.world.Reaches root y →
    s.world.nameOf x = s.world.nameOf y → x = y
  disjoint : ∀ x, s.world.Reaches root x → ∀ name,
    ((s.world.object x).schema.attribute? name).isSome = true →
      (s.world.object x).schema.relation? name = none
  apart : ∀ x y, s.world.Reaches root x → s.world.Reaches root y →
    (s.world.object x).id = (s.world.object y).id →
    s.world.store.hierarchy.isA (s.world.object x).className (s.world.object y).className = true →
      x = y
  free : ∀ x r, s.world.Reaches root x → s.world.store.Visible r → r.id = (s.world.object x).id →
    s.world.store.hierarchy.isA r.className (s.world.object x).className = false

/-- Whether a graph is new shows on a list that has all its objects. -/
theorem newGraph_of_closed {l : List ObjectId} (hroot : root ∈ l)
    (hclosed : ∀ x ∈ l, ∀ name ∈ (s.world.object x).schema.relations.keys,
      ∀ y ∈ (s.world.object x).leadsTo name, y ∈ l)
    (hnew : ∀ x ∈ l, base.world.objects.size ≤ x.index ∧ x.index < s.world.objects.size)
    (hnames : ∀ x ∈ l, ∀ y ∈ l, s.world.nameOf x = s.world.nameOf y → x = y)
    (hdisjoint : ∀ x ∈ l, ∀ name ∈ (s.world.object x).schema.attributes.keys,
      (s.world.object x).schema.relation? name = none)
    (hapart : ∀ x ∈ l, ∀ y ∈ l, (s.world.object x).id = (s.world.object y).id → x = y)
    (hfree : s.world.store.allRecords = []) : NewGraph base s root := by
  have hmem : ∀ x, s.world.Reaches root x → x ∈ l := fun x hx => hx.mem_of_closed hroot hclosed
  constructor
  · exact fun x hx => hnew x (hmem x hx)
  · exact fun x y hx hy => hnames x (hmem x hx) y (hmem y hy)
  · intro x hx name hname
    obtain ⟨a, ha⟩ := Option.isSome_iff_exists.mp hname
    exact hdisjoint x (hmem x hx) name (OrderedMap.mem_keys_iff.mpr ⟨a, ha⟩)
  · exact fun x y hx hy hid _ => hapart x (hmem x hx) y (hmem y hy) hid
  · intro x r _ hvisible
    have hstored := hvisible.mem_allRecords
    simp [hfree] at hstored

/-- A graph that was built is walked through as a whole. -/
theorem NewGraph.mem_traverse_iff (h : NewGraph base s root) (hb : Building base s) :
    x ∈ s.world.traverse root ↔ s.world.Reaches root x := by
  refine World.mem_traverse_iff ?_ h.names
  intro y hy
  obtain ⟨hle, hlt⟩ := h.new y hy
  exact (hb.built y hle hlt).2.id

/-- The store has the classes of a graph as the objects know them. -/
def Declared (s : Workspace) (root : ObjectId) : Prop :=
  ∀ x, s.world.Reaches root x → ClassSchema.LoadedFrom s.world.store.hierarchy
    (s.world.object x).className (s.world.object x).schema

/-- While the store has the classes as they were when the registry was last refreshed, it has those of
whatever was built. -/
theorem NewGraph.declared (h : NewGraph base s root) (hb : Building base s)
    (hcurrent : base.registry.Current s.world.store.hierarchy) : Declared s root := by
  intro x hx
  obtain ⟨hle, hlt⟩ := h.new x hx
  obtain ⟨-, hschema, -⟩ := hcurrent.types _ _ (hb.built x hle hlt).1
  exact hcurrent.schemas _ _ hschema

theorem NewGraph.fresh (h : NewGraph base s root) (hbase : Ready base) (hb : Building base s)
    (hdeclared : Declared s root) : Fresh s (s.world.traverse root) := by
  have hmem : ∀ x ∈ s.world.traverse root, s.world.Reaches root x :=
    fun x hx => (h.mem_traverse_iff hb).mp hx
  have hbuilt : ∀ x ∈ s.world.traverse root,
      base.registry.types.get? (s.world.object x).className = some (s.world.object x).type
        ∧ (s.world.object x).Built := by
    intro x hx
    obtain ⟨hle, hlt⟩ := h.new x (hmem x hx)
    exact hb.built x hle hlt
  refine ⟨?_, ?_, fun x hx => hdeclared x (hmem x hx), fun x hx => (hbuilt x hx).2,
    ⟨?_, ?_, ?_, ?_⟩, ?_, ?_⟩
  · rw [hb.session, hb.store]
    exact hbase.active
  · intro x hx
    rw [hb.registry_schemas]
    exact (hbase.consistent _ _ (hbuilt x hx).1).2
  · exact fun x hx => (hbuilt x hx).2.oldId
  · exact fun x hx y hy => h.names x y (hmem x hx) (hmem y hy)
  · exact fun x hx y hy => h.apart x y (hmem x hx) (hmem y hy)
  · exact fun x hx r => h.free x r (hmem x hx)
  · intro x hx name hname y hy
    exact (h.mem_traverse_iff hb).mpr (.step (hmem x hx) hname hy)
  · exact fun x hx => h.disjoint x (hmem x hx)

namespace Restored

variable (h : Restored s base u (s.world.traverse root))
  (hmem : ∀ x, x ∈ s.world.traverse root ↔ s.world.Reaches root x)

include h hmem

/-- Everything that the root leads to has an image. -/
theorem imaged (hroot : Imaged s u root) (hx : s.world.Reaches root x) : Imaged s u x := by
  induction hx with
  | root => exact hroot
  | step above known target ih =>
    obtain ⟨r, hr⟩ := OrderedMap.mem_keys_iff.mp known
    have hin := (hmem _).mpr above
    obtain rfl := (h.fresh.wellNamed hin).relations _ r hr
    exact (h.shown_relation hin ih (ClassSchema.mem_relations_of_relation? hr)).2 _ target

/-- A relation of an image reads as the images of what the relation of the object reads as. -/
theorem reads_relation (hx : s.world.Reaches root x) (himaged : Imaged s u x) {r : Relation}
    (hr : r ∈ (s.world.object x).schema.relations.values) :
    (u.world.object (image s u x)).reads r.name
      = ((s.world.object x).reads r.name).map (Field.mapTargets (image s u)) := by
  have hin := (hmem x).mpr hx
  by_cases hid : r.name = "id"
  · rw [hid, Object.reads_id, Object.reads_id]
    exact congrArg (fun r : RecordRef => Except.ok (Field.value (.text r.id))) himaged.2
  · have hname := (h.fresh.wellNamed hin).relation?_of_mem hr
    have hnone := h.fresh.attribute?_eq_none hin hname
    have hschema := h.schema_image hin himaged
    obtain ⟨hshown, -⟩ := h.shown_relation hin himaged hr
    rw [Object.reads_of_shown_ofTargets hid (by rw [hschema]; exact hnone)
      (by rw [hschema]; exact hname) hshown,
      ((h.fresh.built x hin).reads_relation hid hnone hname).1]
    exact congrArg Except.ok (Field.mapTargets_ofTargets _ _ _).symm

theorem leadsTo_image (hx : s.world.Reaches root x) (himaged : Imaged s u x) {name : String}
    (hname : name ∈ (s.world.object x).schema.relations.keys) :
    (u.world.object (image s u x)).leadsTo name
      = ((s.world.object x).leadsTo name).map (image s u) := by
  obtain ⟨r, hr⟩ := OrderedMap.mem_keys_iff.mp hname
  obtain rfl := (h.fresh.wellNamed ((hmem x).mpr hx)).relations _ r hr
  have hreads := h.reads_relation hmem hx himaged (ClassSchema.mem_relations_of_relation? hr)
  unfold Object.leadsTo
  rw [hreads]
  cases (s.world.object x).reads r.name with
  | error e => rfl
  | ok f => exact Field.targets_mapTargets _ f

theorem isomorphic (hroot : Imaged s u root) :
    s.world.Isomorphic root u.world (image s u root) (image s u) where
  start := rfl
  reaches x hx := by
    induction hx with
    | root => exact .root
    | step above known target ih =>
      have himaged := h.imaged hmem hroot above
      refine .step ih (by rw [h.schema_image ((hmem _).mpr above) himaged]; exact known) ?_
      rw [h.leadsTo_image hmem above himaged known]
      exact List.mem_map_of_mem target
  injective x y hx hy heq := by
    have hrecord := (h.imaged hmem hroot hx).2
    rw [heq, (h.imaged hmem hroot hy).2] at hrecord
    exact h.fresh.record_injective ((hmem x).mpr hx) ((hmem y).mpr hy) hrecord.symm
  surjective y hy := by
    induction hy with
    | root => exact ⟨root, .root, rfl⟩
    | step above known target ih =>
      obtain ⟨x, hx, rfl⟩ := ih
      have himaged := h.imaged hmem hroot hx
      rw [h.schema_image ((hmem x).mpr hx) himaged] at known
      rw [h.leadsTo_image hmem hx himaged known] at target
      obtain ⟨y, hy, rfl⟩ := List.mem_map.mp target
      exact ⟨y, .step hx known hy, rfl⟩
  record x hx := (h.imaged hmem hroot hx).2
  schema x hx := h.schema_image ((hmem x).mpr hx) (h.imaged hmem hroot hx)
  relations x hx r hr := h.reads_relation hmem hx (h.imaged hmem hroot hx) hr
  attributes x hx name a ha hfloat :=
    h.reads_attribute ((hmem x).mpr hx) (h.imaged hmem hroot hx) ha hfloat

end Restored

/-- A new graph comes back from the store as it was, for a later session with a new registry, as long as
the store has the classes as they were when the graph was built. -/
theorem getObject_updateWith_isomorphic {p : ProxyId} {options : Options} {session : Session}
    {w : World} (hbase : Ready base) (hsteps : build steps base = s) (hgraph : NewGraph base s root)
    (hdeclared : Declared s root) (hupdate : updateWith .pedantic root true s = (.ok p, t))
    (hnew : options.registry = none)
    (hopen : openWith options t.world = (.ok session, w)) :
    ∃ o u f, getObject (s.world.object root).className (s.world.object root).id ⟨session, w⟩
        = (.ok o, u)
      ∧ s.world.Isomorphic root u.world o f := by
  have hb : Building base s := hsteps ▸ building_build hbase.consistent steps
  have hmem : ∀ x, x ∈ s.world.traverse root ↔ s.world.Reaches root x :=
    fun x => hgraph.mem_traverse_iff hb
  have hfresh := hgraph.fresh hbase hb hdeclared
  obtain ⟨-, hscope, hvisible, hkept⟩ := updateWith_kept hfresh hupdate
  have hopened := openWith_run hnew hopen
  have hrestorable : Restorable s ⟨session, w⟩ (s.world.traverse root) := by
    refine ⟨hfresh, ?_, ?_, ?_, hopened.current, hopened.complete, hopened.cached⟩
    · rw [hopened.store]
      exact hscope
    · rw [hopened.store]
      exact hvisible
    · intro x hx
      obtain ⟨hseen, hattributes, hrelations⟩ := hkept x hx
      rw [← hopened.store] at hseen hattributes hrelations
      exact ⟨hseen, hattributes, hrelations⟩
  have hin := (hmem root).mpr .root
  obtain ⟨o, u, hget, hhydrating, hstands, hrecord⟩ :=
    getObject_ok (hydrating_start hrestorable.cached) hrestorable.loadable
      (hrestorable.cached _ _) (hrestorable.find hin) ⟨root, hin, rfl⟩
  obtain ⟨rfl, hroot⟩ := image_of_stands hstands hrecord
  exact ⟨_, u, image s u, hget, (Restored.mk hrestorable hhydrating).isomorphic hmem hroot⟩

/-- People, none of whom has a record. -/
def unrecorded : Store :=
  { severed with databases := .insert .empty "near" { includes := ["people"] } }

def unrecordedSession : Workspace :=
  { severedSession with world := { severedSession.world with store := unrecorded } }

/-- Two who know each other. -/
def pairSteps : List BuildStep :=
  [.make "Person" "a", .make "Person" "b", .set ⟨0⟩ "note" (.value (.text "x")),
    .set ⟨0⟩ "peer" (.object ⟨1⟩), .set ⟨1⟩ "peer" (.object ⟨0⟩)]

def pairBuilt : Workspace := build pairSteps unrecordedSession

theorem current_unrecordedSession :
    unrecordedSession.registry.Current unrecordedSession.world.store.hierarchy :=
  Registry.current_single rfl rfl

theorem ready_unrecordedSession : Ready unrecordedSession := by
  refine ⟨current_unrecordedSession.consistent, fun place hplace => ?_⟩
  cases hplace
  decide +kernel

theorem newGraph_pair : NewGraph unrecordedSession pairBuilt ⟨0⟩ := by
  apply newGraph_of_closed (l := [⟨0⟩, ⟨1⟩])
  all_goals decide +kernel

theorem pairBuilt_updated : ∃ p t, updateWith .pedantic ⟨0⟩ true pairBuilt = (.ok p, t) := by
  obtain ⟨p, hupdate⟩ := run_of_isOk (m := updateWith .pedantic ⟨0⟩ true) (s := pairBuilt)
    (by decide +kernel)
  exact ⟨p, _, hupdate⟩

/-- The two come back with all that was set. -/
theorem getObject_updateWith_isomorphic_pair :
    ∃ p t session w o u f, updateWith .pedantic ⟨0⟩ true pairBuilt = (.ok p, t)
      ∧ openWith {} t.world = (.ok session, w)
      ∧ getObject "Person" "a" ⟨session, w⟩ = (.ok o, u)
      ∧ pairBuilt.world.Isomorphic ⟨0⟩ u.world o f := by
  have hb : Building unrecordedSession pairBuilt :=
    building_build ready_unrecordedSession.consistent pairSteps
  have hdeclared := newGraph_pair.declared hb (hb.store ▸ current_unrecordedSession)
  obtain ⟨p, t, hupdate⟩ := pairBuilt_updated
  obtain ⟨-, hscope, -⟩ := updateWith_kept (newGraph_pair.fresh ready_unrecordedSession hb hdeclared)
    hupdate
  rw [hb.store] at hscope
  have hopen := openWith_single (v := t.world) (s := personSchema)
    (hscope.classes.trans (by decide +kernel)) (hscope.hierarchy ▸ rfl) rfl
  obtain ⟨o, u, f, hget, hisomorphic⟩ := getObject_updateWith_isomorphic
    ready_unrecordedSession (s := pairBuilt) rfl newGraph_pair hdeclared hupdate rfl hopen
  have hrecord : (pairBuilt.world.object ⟨0⟩).record = ⟨"Person", "a"⟩ := by decide +kernel
  obtain ⟨hclass, hid⟩ := RecordRef.mk.inj hrecord
  rw [hclass, hid] at hget
  exact ⟨p, t, _, _, o, u, f, hupdate, hopen, hget, hisomorphic⟩

/-- The same people, once notes have an initial value. -/
def redeclared : Store :=
  { unrecorded with schemas := .insert .empty "people" { classes := [{
      name := "Person"
      attributes := [{ name := "note", type := "string", initialValue := some "x" }]
      relations := [{ name := "peer", target := "Person" }] }] } }

def redeclaredSchema : ClassSchema :=
  { personSchema with attributes := .insert .empty "note" {
      name := "note", type := .text .string, multivalue := false, notNull := false
      rangeSource := none, initialSource := some "x", description := ""
      binding := some { range := .unbounded, initial := some (.text "x") } } }

/-- A session that has not been refreshed since. -/
def redeclaredSession : Workspace :=
  { unrecordedSession with world := { unrecordedSession.world with store := redeclared } }

def redeclaredBuilt : Workspace := build [.make "Person" "a"] redeclaredSession

def redeclaredUpdated : Workspace := (updateWith .pedantic ⟨0⟩ true redeclaredBuilt).2

def redeclaredReopened : Workspace :=
  { session := {
      registry := ⟨redeclaredUpdated.world.registries.size⟩
      active := redeclaredUpdated.world.store.loaded.head?
      cache := SessionCache.init {} "Person" }
    world := redeclaredUpdated.world.addRegistry
      (.single ⟨redeclaredUpdated.world.registries.size⟩ redeclaredSchema)
      (ClassSchema.load redeclaredUpdated.world.store.hierarchy "Person" []).2 }

/-- What has no value yet comes back with an initial value that its class came to have. -/
theorem not_isomorphic_of_redeclared :
    ¬ ∀ (base s t : Workspace) (steps : List BuildStep) (root : ObjectId) (p : ProxyId)
      (options : Options) (session : Session) (w : World),
      Ready base → build steps base = s → NewGraph base s root →
      updateWith .pedantic root true s = (.ok p, t) → options.registry = none →
      openWith options t.world = (.ok session, w) →
      ∃ o u f, getObject (s.world.object root).className (s.world.object root).id ⟨session, w⟩
          = (.ok o, u)
        ∧ s.world.Isomorphic root u.world o f := by
  intro hclaim
  have hready : Ready redeclaredSession :=
    ⟨ready_unrecordedSession.consistent, ready_unrecordedSession.active⟩
  have hgraph : NewGraph redeclaredSession redeclaredBuilt ⟨0⟩ := by
    apply newGraph_of_closed (l := [⟨0⟩])
    all_goals decide +kernel
  obtain ⟨p, hupdate⟩ := run_of_isOk (m := updateWith .pedantic ⟨0⟩ true) (s := redeclaredBuilt)
    (by decide +kernel)
  have hsame : redeclaredUpdated.world.store.hierarchy = redeclared.hierarchy := by decide +kernel
  have hopen : openWith {} redeclaredUpdated.world
      = (.ok redeclaredReopened.session, redeclaredReopened.world) :=
    openWith_single (s := redeclaredSchema) (by decide +kernel) (hsame ▸ rfl) rfl
  obtain ⟨o, u, f, hget, hisomorphic⟩ := hclaim _ redeclaredBuilt redeclaredUpdated _ ⟨0⟩ p {} _ _
    hready rfl hgraph hupdate rfl hopen
  have hrecord : (redeclaredBuilt.world.object ⟨0⟩).record = ⟨"Person", "a"⟩ := by decide +kernel
  obtain ⟨hclass, hid⟩ := RecordRef.mk.inj hrecord
  rw [hclass, hid] at hget
  have hfound := run_of_toOption (m := getObject "Person" "a") (s := redeclaredReopened) (a := ⟨1⟩)
    (by decide +kernel)
  obtain ⟨ho, hu⟩ := Prod.mk.inj (hget.symm.trans hfound)
  have hattribute : ((redeclaredBuilt.world.object ⟨0⟩).schema.attribute? "note").map Attribute.type
      = some (.text .string) := by decide +kernel
  obtain ⟨a, ha, htype⟩ := Option.map_eq_some_iff.mp hattribute
  have hreads := hisomorphic.attributes ⟨0⟩ .root "note" a ha (by simp [htype])
  have hbefore : ((redeclaredBuilt.world.object ⟨0⟩).reads "note").toOption.map Field.isUnset
      = some true := by decide +kernel
  have hafter : (((getObject "Person" "a" redeclaredReopened).2.world.object ⟨1⟩).reads
      "note").toOption.map Field.isUnset = some false := by decide +kernel
  rw [← hreads, hisomorphic.start, Except.ok.inj ho, hu, hafter] at hbefore
  simp at hbefore

end Session

end RecordGraph
