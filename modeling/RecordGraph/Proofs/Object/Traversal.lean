import Mathlib.Logic.Relation
import RecordGraph.Object.Find
import RecordGraph.Proofs.Object.Reading
import RecordGraph.Proofs.Preorder

/-!
Walking through objects.  The walk from an object lists what the recursive walk lists, in the same
order.  That is exactly what the object leads to, as long as no two of these objects share a full name.
-/

namespace RecordGraph

namespace Arena

universe u

variable {α : Type u} [Inhabited α] {a : Arena α} {i : Nat}

theorem mem_toList_of_lt (hi : i < a.size) : a.read i ∈ a.toList := by
  have hcell : i < a.cells.size := hi
  rw [read, Array.getD, dif_pos hcell]
  exact Array.mem_toList_iff.mpr (Array.getElem_mem hi)

theorem read_of_le (hi : a.size ≤ i) : a.read i = default := by
  simp [read, Array.getD, show ¬ i < a.cells.size from Nat.not_lt.mpr hi]

end Arena

namespace Object

variable {o : Object} {name : String} {f : Field} {x : ObjectId}

theorem leadsTo_id (o : Object) : o.leadsTo "id" = [] := rfl

theorem leadsTo_of_reads (h : o.reads name = .ok f) : o.leadsTo name = f.targets := by
  rw [leadsTo, h]

/-- A field that holds nothing leads nowhere. -/
theorem leadsTo_of_missing (hf : o.fields.get? name = none) : o.leadsTo name = [] := by
  by_cases hid : name = "id"
  · subst hid
    exact leadsTo_id o
  · rw [leadsTo, reads_of_missing hid hf]
    cases hinitial : o.initial name with
    | error e => rfl
    | ok f =>
      unfold initial at hinitial
      repeat' split at hinitial
      all_goals cases hinitial <;> rfl

/-- The objects that a field points to, as far as something is held under its name. -/
def targetsUnder (o : Object) (name : String) : List ObjectId :=
  match o.fields.get? name with
  | some (.object target) => [target]
  | some (.objects targets) => targets
  | _ => []

/-- Relations come in the order of the schema, and the targets of each one in the order of its list. -/
theorem related_eq_flatMap (o : Object) : o.related = o.schema.relations.keys.flatMap o.targetsUnder := by
  unfold related
  generalize o.schema.relations.keys = names
  induction names with
  | nil => rfl
  | cons name names ih =>
    rw [List.flatMap_cons, ← ih, targetsUnder]
    cases hf : o.fields.get? name with
    | none => rw [List.filterMap_cons_none hf, List.nil_append]
    | some f =>
      rw [List.filterMap_cons_some hf, List.flatMap_cons]
      cases f <;> rfl

/-- The targets of relations are what the relations lead to. -/
theorem mem_related_iff (hid : o.fields.get? "id" = none) :
    x ∈ o.related ↔ ∃ name ∈ o.schema.relations.keys, x ∈ o.leadsTo name := by
  unfold related
  simp only [List.mem_flatMap, List.mem_filterMap]
  constructor
  · rintro ⟨f, ⟨name, hname, hf⟩, hx⟩
    have hne : name ≠ "id" := by
      rintro rfl
      simp [hid] at hf
    exact ⟨name, hname, by rwa [leadsTo_of_reads (reads_of_held hne hf)]⟩
  · rintro ⟨name, hname, hx⟩
    have hne : name ≠ "id" := by
      rintro rfl
      simp [leadsTo_id] at hx
    cases hf : o.fields.get? name with
    | none => simp [leadsTo_of_missing hf] at hx
    | some f =>
      rw [leadsTo_of_reads (reads_of_held hne hf)] at hx
      exact ⟨f, ⟨name, hname, hf⟩, hx⟩

end Object

namespace World

/-- What an object leads to, over any number of relations. -/
inductive Reaches (w : World) (root : ObjectId) : ObjectId → Prop
  | root : Reaches w root root
  | step {x y : ObjectId} {name : String} (above : Reaches w root x)
      (known : name ∈ (w.object x).schema.relations.keys) (target : y ∈ (w.object x).leadsTo name) :
      Reaches w root y

variable {w : World} {root x : ObjectId}

/-- A list that has the targets of its objects has all that they lead to. -/
theorem Reaches.mem_of_closed {l : List ObjectId} (hroot : root ∈ l)
    (hclosed : ∀ x ∈ l, ∀ name ∈ (w.object x).schema.relations.keys,
      ∀ y ∈ (w.object x).leadsTo name, y ∈ l) (hx : w.Reaches root x) : x ∈ l := by
  induction hx with
  | root => exact hroot
  | step above known target ih => exact hclosed _ ih _ known _ target

/-- How many targets the relations of the objects have, by full name. -/
def targetCounts (w : World) : List (String × Nat) :=
  w.objects.toList.map fun o => (o.fullName, o.related.length)

theorem weightOutside_targetCounts (w : World) :
    weightOutside w.targetCounts [] = w.targetCount := by
  rw [weightOutside_nil, targetCounts, targetCount, List.map_map]
  rfl

/-- Taking up an object with a new name pays for the targets that come to wait. -/
theorem weightOutside_related_le (w : World) {seen : List String} (hnew : w.nameOf x ∉ seen) :
    weightOutside w.targetCounts (seen ++ [w.nameOf x]) + (w.related x).length
      ≤ weightOutside w.targetCounts seen := by
  by_cases hx : x.index < w.objects.size
  · exact weightOutside_append_add_le
      (List.mem_map_of_mem (f := fun o : Object => (o.fullName, o.related.length))
        (Arena.mem_toList_of_lt hx)) hnew
  · have hnone : w.related x = [] := by
      rw [related, object, Arena.read_of_le (Nat.not_lt.mp hx)]
      rfl
    rw [hnone]
    exact weightOutside_append_le _ _ _

/-- The walk goes on until no object waits. -/
theorem visits_traverse (w : World) (root : ObjectId) :
    Visits .depthFirst w.nameOf w.related [root] [] (w.traverse root) := by
  refine visits_visit .depthFirst w.nameOf w.related
    (fun seen => weightOutside w.targetCounts (seen.map w.nameOf)) (fun seen node hfresh => ?_)
    (1 + w.targetCount) (Nat.le_of_eq (by rw [List.map_nil, weightOutside_targetCounts]; rfl))
  rw [List.map_append]
  refine w.weightOutside_related_le fun hmem => ?_
  obtain ⟨other, hother, heq⟩ := List.mem_map.mp hmem
  exact hfresh other hother heq

/-- The walk takes up its object first. -/
theorem root_prefix_traverse (w : World) (root : ObjectId) : [root] <+: w.traverse root := by
  cases w.visits_traverse root with
  | pass met _ => simp at met
  | take _ rest => exact rest.seen_prefix

/-- What a listed object leads to has its name among those of the listed objects. -/
theorem covered_traverse (w : World) (root : ObjectId) :
    Covered w.nameOf w.related (w.traverse root) (w.traverse root) :=
  ((w.visits_traverse root).covered (by simp [Covered])).2

/-- The walk lists what the object leads to. -/
theorem mem_traverse_iff
    (hid : ∀ x, w.Reaches root x → (w.object x).fields.get? "id" = none)
    (hnames : ∀ x y, w.Reaches root x → w.Reaches root y → w.nameOf x = w.nameOf y → x = y) :
    x ∈ w.traverse root ↔ w.Reaches root x := by
  have hsound : ∀ x ∈ w.traverse root, w.Reaches root x := by
    apply visit_sound
    · intro x hx y hy
      obtain ⟨name, hname, hy⟩ := (Object.mem_related_iff (hid x hx)).mp hy
      exact .step hx hname hy
    · intro x hx
      obtain rfl := List.mem_singleton.mp hx
      exact .root
    · simp
  refine ⟨hsound x, fun hx => ?_⟩
  induction hx with
  | root => exact (w.root_prefix_traverse root).subset List.mem_cons_self
  | step above known target ih =>
    obtain ⟨z, hz, heq⟩ := w.covered_traverse root _ ih _
      ((Object.mem_related_iff (hid _ above)).mpr ⟨_, known, target⟩)
    exact hnames z _ (hsound z hz) (.step above known target) heq ▸ hz

/-! ### The recursive walk -/

/-- One object leads to another over any number of targets of relations. -/
def Leads (w : World) : ObjectId → ObjectId → Prop :=
  Relation.ReflTransGen fun x y => y ∈ w.related x

/-- What is closed under relations has all that its members lead to. -/
theorem Leads.mem_of_closed {l : List ObjectId} (hroot : root ∈ l)
    (hclosed : ∀ x ∈ l, ∀ y ∈ w.related x, y ∈ l) (hx : w.Leads root x) : x ∈ l := by
  induction hx with
  | refl => exact hroot
  | tail _ hy ih => exact hclosed _ ih _ hy

theorem leads_of_mem_traverse (hx : x ∈ w.traverse root) : w.Leads root x := by
  refine visit_sound .depthFirst w.nameOf w.related (w.Leads root) ?_ _ ?_ ?_ x hx
  · intro y hy z hz
    exact Relation.ReflTransGen.tail hy hz
  · intro y hy
    obtain rfl := List.mem_singleton.mp hy
    exact Relation.ReflTransGen.refl
  · simp

theorem nodup_names_traverse (w : World) (root : ObjectId) :
    ((w.traverse root).map w.nameOf).Nodup :=
  nodup_visit .depthFirst w.nameOf w.related (1 + w.targetCount) [root] [] (by simp)

/-- The recursive walk from an object lists what the walk lists, and nothing else. -/
theorem walks_iff_eq_traverse {out : List ObjectId} :
    Walks w.nameOf w.related [root] [] out ↔ out = w.traverse root := by
  rw [walks_iff_visits]
  constructor
  · intro h
    exact h.unique (w.visits_traverse root)
  · rintro rfl
    exact w.visits_traverse root

/-- The walk comes to its end, and lists what the recursive walk from the object lists: each object whose
full name was not met before, then what the targets of its relations lead to, one after the other, in
the order of the schema and of their lists.  So the object itself comes first, every full name comes
once, and what is listed is what the object leads to, with the full name of every target of a relation. -/
theorem traverse_preorder (w : World) (root : ObjectId) :
    Visits .depthFirst w.nameOf w.related [root] [] (w.traverse root)
      ∧ (∀ out, Walks w.nameOf w.related [root] [] out ↔ out = w.traverse root)
      ∧ (w.traverse root).head? = some root
      ∧ ((w.traverse root).map w.nameOf).Nodup
      ∧ (∀ x ∈ w.traverse root, w.Leads root x)
      ∧ (∀ x ∈ w.traverse root, ∀ y ∈ w.related x, w.nameOf y ∈ (w.traverse root).map w.nameOf)
      ∧ ∀ x, w.related x = (w.object x).schema.relations.keys.flatMap (w.object x).targetsUnder := by
  refine ⟨w.visits_traverse root, fun _ => walks_iff_eq_traverse, ?_, w.nodup_names_traverse root,
    fun x hx => leads_of_mem_traverse hx, fun x hx y hy => ?_,
    fun x => (w.object x).related_eq_flatMap⟩
  · obtain ⟨others, hothers⟩ := w.root_prefix_traverse root
    rw [← hothers]
    rfl
  · exact List.mem_map.mpr (w.covered_traverse root x hx y hy)

/-- A type of objects that lead to one object and to any number of objects of the type. -/
def knotType : ClassType :=
  let relation (name : String) (multivalue : Bool) : Relation :=
    { name, target := "A", multivalue, notNull := false, aggregation := false, description := "" }
  { schema := {
      name := "A"
      relations := (OrderedMap.insert .empty "next" (relation "next" false)).insert "peers"
        (relation "peers" true) }
    bases := []
    home := ⟨0⟩ }

/-- Objects that lead to each other in circles, of which two have one name. -/
def knot : World :=
  let peers (targets : List ObjectId) : OrderedMap String Field := .insert .empty "peers" (.objects targets)
  let objects : List Object := [
    { type := knotType, id := "r", fields := (peers [⟨2⟩, ⟨0⟩, ⟨3⟩]).insert "next" (.object ⟨1⟩) },
    { type := knotType, id := "x", fields := peers [⟨0⟩] },
    { type := knotType, id := "c", fields := peers [⟨3⟩, ⟨1⟩] },
    { type := knotType, id := "x", fields := .insert .empty "next" (.object ⟨4⟩) },
    { type := knotType, id := "d" }]
  { objects := ⟨objects.toArray⟩ }

/-- The walk goes to the one target of the first relation, though it was written last, and then through
the list of the other one.  It passes the second object of one name, and what only that one leads to. -/
theorem traverse_preorder_knot :
    knot.related ⟨0⟩ = [⟨1⟩, ⟨2⟩, ⟨0⟩, ⟨3⟩]
      ∧ Walks knot.nameOf knot.related [⟨0⟩] [] [⟨0⟩, ⟨1⟩, ⟨2⟩]
      ∧ knot.Leads ⟨0⟩ ⟨2⟩ := by
  obtain ⟨-, hwalks, -, -, hleads, -, hrelated⟩ := knot.traverse_preorder ⟨0⟩
  have htraverse : knot.traverse ⟨0⟩ = [⟨0⟩, ⟨1⟩, ⟨2⟩] := by decide +kernel
  refine ⟨(hrelated ⟨0⟩).trans (by decide +kernel), (hwalks _).mpr htraverse.symm, hleads ⟨2⟩ ?_⟩
  rw [htraverse]
  decide

end World

end RecordGraph
