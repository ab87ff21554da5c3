import Mathlib.Data.List.Nodup
import RecordGraph.Proofs.Object.Listing
import RecordGraph.Proofs.Object.Traversal
import RecordGraph.Proofs.Text.Matching

/-!
Searching among the objects that an object leads to.  A search lists, in the order of classes and ids,
what the walk from the object lists and its two queries accept; a search for one id finds the first of
these that has the id.  The walk passes over an object whose full name it met before, with all that only
this object leads to.
-/

namespace RecordGraph

universe u

/-- The first member of a list with a property. -/
def FirstWith {α : Type u} (P : α → Prop) (xs : List α) (x : α) : Prop :=
  P x ∧ ∃ before after, xs = before ++ x :: after ∧ ∀ y ∈ before, ¬ P y

section FirstWith

variable {α : Type u} {P Q : α → Prop} {xs : List α} {x : α}

theorem find?_eq_some_iff_firstWith {p : α → Bool} (hp : ∀ x, p x = true ↔ P x) :
    xs.find? p = some x ↔ FirstWith P xs x := by
  rw [List.find?_eq_some_iff_append, FirstWith, hp]
  simp only [Bool.not_eq_true', ← Bool.not_eq_true, hp]

theorem FirstWith.mem (h : FirstWith P xs x) : x ∈ xs := by
  obtain ⟨-, before, after, rfl, -⟩ := h
  exact List.mem_append_right _ List.mem_cons_self

theorem FirstWith.imp (hPQ : ∀ y ∈ xs, P y ↔ Q y) (h : FirstWith P xs x) : FirstWith Q xs x := by
  have hx := (hPQ x h.mem).mp h.1
  obtain ⟨-, before, after, rfl, hbefore⟩ := h
  exact ⟨hx, before, after, rfl, fun y hy hQ =>
    hbefore y hy ((hPQ y (List.mem_append_left _ hy)).mpr hQ)⟩

end FirstWith

/-! ### Queries -/

namespace Pattern

/-- Where the leftmost match of a pattern in a text starts. -/
structure LeftmostAt (p : Pattern) (text : String) (start : Nat) : Prop where
  le : start ≤ text.length
  found : p.StartsAt text start
  first : ∀ earlier < start, ¬ p.StartsAt text earlier

theorem leftmost?_eq_some_iff {p : Pattern} {text : String} {start : Nat} :
    p.leftmost? text = some start ↔ p.LeftmostAt text start := by
  unfold leftmost?
  simp only [List.find?_range_eq_some, List.size_toArray, List.mem_range, String.length_toList,
    Nat.lt_succ_iff, Bool.not_eq_true', ← Bool.not_eq_true, matchesAt_iff]
  exact ⟨fun ⟨hfound, hle, hfirst⟩ => ⟨hle, hfound, hfirst⟩,
    fun h => ⟨h.found, h.le, h.first⟩⟩

end Pattern

namespace Query

/-- The names that satisfy a query.  For a pattern these are the names in which its leftmost match starts
at the first character. -/
def Satisfied (name : String) : Query → Prop
  | .any => True
  | .exact wanted => name = wanted
  | .pattern p => p.LeftmostAt name 0

theorem accepts_iff {q : Query} {name : String} : q.accepts name = true ↔ q.Satisfied name := by
  cases q with
  | any => simp [accepts, Satisfied]
  | exact wanted => simp [accepts, Satisfied, @eq_comm _ wanted]
  | pattern p =>
    rw [accepts, Pattern.matchesStart, beq_iff_eq]
    exact Pattern.leftmost?_eq_some_iff

end Query

/-! ### Sorting -/

namespace RecordRef

/-- One record comes before another one, by class and then by id. -/
def Before (r s : RecordRef) : Prop :=
  r.className < s.className ∨ r.className = s.className ∧ r.id < s.id

instance : Std.TransCmp order :=
  inferInstanceAs (Std.TransCmp (compareLex (compareOn className) (compareOn id)))

variable {r s : RecordRef}

theorem order_eq_eq_iff : r.order s = .eq ↔ r = s := by
  rw [order, Ordering.then_eq_eq, Std.compare_eq_iff_eq, Std.compare_eq_iff_eq]
  constructor
  · rintro ⟨hclass, hid⟩
    cases r
    cases s
    exact congrArg₂ RecordRef.mk hclass hid
  · rintro rfl
    exact ⟨rfl, rfl⟩

theorem order_eq_lt_iff : r.order s = .lt ↔ r.Before s := by
  have hlt : ∀ a b : String, compare a b = .lt ↔ a < b := fun a b => compareOfLessAndEq_eq_lt
  rw [order, Ordering.then_eq_lt, hlt, hlt, Std.compare_eq_iff_eq]
  rfl

end RecordRef

namespace World

variable {w : World} {root x : ObjectId} {os : List ObjectId}

theorem compareObjects_eq (w : World) (x y : ObjectId) :
    w.compareObjects x y = (w.object x).record.order (w.object y).record := by
  unfold compareObjects
  split
  · rename_i heq
    rw [eq_of_beq heq, RecordRef.order_eq_eq_iff.mpr rfl]
  · rfl

theorem pairwise_isLE_sortObjects (w : World) (os : List ObjectId) :
    (w.sortObjects os).Pairwise fun x y =>
      ((w.object x).record.order (w.object y).record).isLE = true := by
  simp only [sortObjects, compareObjects_eq]
  refine List.pairwise_mergeSort (fun x y z hxy hyz => ?_) (fun x y => ?_) os
  · exact Std.TransCmp.isLE_trans hxy hyz
  · have hswap : (w.object y).record.order (w.object x).record
        = ((w.object x).record.order (w.object y).record).swap := Std.OrientedCmp.eq_swap
    rw [hswap]
    cases (w.object x).record.order (w.object y).record <;> rfl

/-- Objects that stand for different records are sorted strictly. -/
theorem pairwise_sortObjects (hnodup : (os.map fun x => (w.object x).record).Nodup) :
    (w.sortObjects os).Pairwise fun x y => (w.object x).record.Before (w.object y).record := by
  have hperm : (w.sortObjects os).Perm os := List.mergeSort_perm os _
  have hdistinct : (w.sortObjects os).Pairwise fun x y => (w.object x).record ≠ (w.object y).record :=
    List.pairwise_map.mp ((hperm.map _).nodup_iff.mpr hnodup)
  refine (w.pairwise_isLE_sortObjects os).imp₂ (fun x y hle hne => ?_) hdistinct
  rw [Ordering.isLE_iff_eq_lt_or_eq_eq] at hle
  exact RecordRef.order_eq_lt_iff.mp
    (hle.resolve_right fun heq => hne (RecordRef.order_eq_eq_iff.mp heq))

theorem mem_sortObjects : x ∈ w.sortObjects os ↔ x ∈ os := List.mem_mergeSort

/-! ### Finding -/

variable {className id : Query} {subclasses : Bool} {name : String}

/-- The class of an object satisfies a query; if subclasses count, one of the names of its ancestry does. -/
def HasClass (w : World) (className : Query) (subclasses : Bool) (x : ObjectId) : Prop :=
  if subclasses then ∃ name ∈ (w.object x).type.names, className.Satisfied name
  else className.Satisfied (w.object x).className

theorem ofClass_iff : w.ofClass className subclasses x = true ↔ w.HasClass className subclasses x := by
  cases subclasses with
  | true => simp [ofClass, HasClass, Query.accepts_iff]
  | false => simp [ofClass, HasClass, Query.accepts_iff]

/-- The objects of a walk whose class and id satisfy two queries, by class and then by id. -/
structure Selects (w : World) (walked : List ObjectId) (className id : Query) (subclasses : Bool)
    (os : List ObjectId) : Prop where
  increasing : os.Pairwise fun x y => (w.object x).record.Before (w.object y).record
  mem_iff : ∀ x, x ∈ os
    ↔ x ∈ walked ∧ w.HasClass className subclasses x ∧ id.Satisfied (w.object x).id

/-- Sorting what two queries accept of the walk selects it. -/
theorem selects_sortObjects (w : World) (root : ObjectId) (className id : Query) (subclasses : Bool) :
    w.Selects (w.traverse root) className id subclasses
      (w.sortObjects (((w.traverse root).filter (w.ofClass className subclasses)).filter
        fun x => id.accepts (w.object x).id)) where
  increasing := by
    have hrecords : ((w.traverse root).map fun x => (w.object x).record).Nodup :=
      List.Nodup.of_map RecordRef.fullName (by
        rw [List.map_map]
        exact w.nodup_names_traverse root)
    refine pairwise_sortObjects (hrecords.sublist (List.Sublist.map _ ?_))
    exact List.filter_sublist.trans List.filter_sublist
  mem_iff x := by
    rw [mem_sortObjects, List.mem_filter, List.mem_filter, ofClass_iff, Query.accepts_iff, and_assoc]

/-- A search for any id or for a pattern lists what it selects. -/
theorem find_listing (w : World) (root : ObjectId) (className id : Query) (subclasses : Bool)
    (hid : ∀ name, id ≠ .exact name) :
    ∃ os, w.find root className id subclasses = .ok (.many os)
      ∧ w.Selects (w.traverse root) className id subclasses os := by
  refine ⟨_, ?_, w.selects_sortObjects root className id subclasses⟩
  cases id with
  | any => rfl
  | exact name => exact absurd rfl (hid name)
  | pattern p => rfl

/-- A search for one id finds the first object of the walk that it could list, or there is none. -/
theorem find_exact (w : World) (root : ObjectId) (className : Query) (subclasses : Bool)
    (name : String) :
    (∃ x, FirstWith (fun y => w.HasClass className subclasses y ∧ (w.object y).id = name)
        (w.traverse root) x
      ∧ w.find root className (.exact name) subclasses = .ok (.one x))
    ∨ ((∀ x ∈ w.traverse root, w.HasClass className subclasses x → (w.object x).id ≠ name)
      ∧ w.find root className (.exact name) subclasses = .error
        (.objectNotFound (fullName className.render name ++ " under " ++ w.nameOf root))) := by
  have hmatch : ∀ x, (w.ofClass className subclasses x && (w.object x).id == name) = true
      ↔ w.HasClass className subclasses x ∧ (w.object x).id = name := fun x => by
    rw [Bool.and_eq_true, beq_iff_eq, ofClass_iff]
  have hfilter : ((w.traverse root).filter (w.ofClass className subclasses)).find?
        (fun x => (w.object x).id == name)
      = (w.traverse root).find? fun x => w.ofClass className subclasses x && (w.object x).id == name := by
    rw [List.find?_filter]
    simp only [Bool.decide_and, Bool.decide_eq_true]
  cases hfound : (w.traverse root).find? fun x =>
      w.ofClass className subclasses x && (w.object x).id == name with
  | some x =>
    refine .inl ⟨x, (find?_eq_some_iff_firstWith hmatch).mp hfound, ?_⟩
    unfold find
    dsimp only
    rw [hfilter, hfound]
  | none =>
    refine .inr ⟨fun x hx hclass hname => ?_, ?_⟩
    · exact List.find?_eq_none.mp hfound x hx ((hmatch x).mpr ⟨hclass, hname⟩)
    · unfold find
      dsimp only
      rw [hfilter, hfound]

/-- Of what an object leads to, objects of one name lead to the same names. -/
def LeadsAlike (w : World) (root : ObjectId) : Prop :=
  ∀ x y, w.Leads root x → w.Leads root y → w.nameOf x = w.nameOf y →
    (w.related x).map w.nameOf ⊆ (w.related y).map w.nameOf

/-- The walk comes to the name of whatever its object leads to, as long as objects of one name lead to
the same names. -/
theorem LeadsAlike.nameOf_mem_traverse (halike : w.LeadsAlike root) (hx : w.Leads root x) :
    w.nameOf x ∈ (w.traverse root).map w.nameOf := by
  induction hx with
  | refl => exact List.mem_map_of_mem ((w.root_prefix_traverse root).subset List.mem_cons_self)
  | @tail x y hx hy ih =>
    obtain ⟨z, hz, hname⟩ := List.mem_map.mp ih
    obtain ⟨y', hy', hname'⟩ := List.mem_map.mp
      (halike x z hx (leads_of_mem_traverse hz) hname.symm (List.mem_map_of_mem hy))
    rw [← hname']
    exact List.mem_map.mpr (w.covered_traverse root z hz y' hy')

/-- A search for any id or for a pattern never fails, and lists by class and then by id the objects of
the recursive walk that its queries accept.  A search for one id finds the first object of the walk that
a search for any id lists with this id, and fails if there is none.  The walk lists objects that its
object leads to, each full name once, and comes to all their full names as long as objects of one name
lead to the same names. -/
theorem find_modes (w : World) (root : ObjectId) (className : Query) (subclasses : Bool) :
    ∃ walked, Walks w.nameOf w.related [root] [] walked
      ∧ (∀ x ∈ walked, w.Leads root x)
      ∧ (walked.map w.nameOf).Nodup
      ∧ (w.LeadsAlike root → ∀ x, w.Leads root x → w.nameOf x ∈ walked.map w.nameOf)
      ∧ (∀ id : Query, (∀ name, id ≠ .exact name) →
        ∃ os, w.find root className id subclasses = .ok (.many os)
          ∧ w.Selects walked className id subclasses os)
      ∧ ∃ os, w.find root className .any subclasses = .ok (.many os)
        ∧ ∀ name, ((∃ found, w.find root className (.exact name) subclasses = .ok found)
            ↔ ∃ x ∈ os, (w.object x).id = name)
          ∧ (∀ found, w.find root className (.exact name) subclasses = .ok found →
            ∃ x, found = .one x ∧ FirstWith (fun y => y ∈ os ∧ (w.object y).id = name) walked x)
          ∧ ((∀ x ∈ os, (w.object x).id ≠ name) →
            w.find root className (.exact name) subclasses = .error
              (.objectNotFound (fullName className.render name ++ " under " ++ w.nameOf root))) := by
  refine ⟨w.traverse root, walks_iff_eq_traverse.mpr rfl, fun _ => leads_of_mem_traverse,
    w.nodup_names_traverse root, fun halike _ => halike.nameOf_mem_traverse,
    fun id => w.find_listing root className id subclasses, ?_⟩
  obtain ⟨os, hlisting, hos⟩ := w.find_listing root className .any subclasses
    fun _ h => Query.noConfusion h
  -- what a search for any id lists are the objects of the walk that are of the class
  have hmem : ∀ x, x ∈ os ↔ x ∈ w.traverse root ∧ w.HasClass className subclasses x := fun x =>
    (hos.mem_iff x).trans (and_congr_right fun _ => and_iff_left trivial)
  refine ⟨os, hlisting, fun name => ?_⟩
  rcases w.find_exact root className subclasses name with ⟨x, hfirst, hfound⟩ | ⟨hnone, hfails⟩
  · have hx : x ∈ os := (hmem x).mpr ⟨hfirst.mem, hfirst.1.1⟩
    refine ⟨⟨fun _ => ⟨x, hx, hfirst.1.2⟩, fun _ => ⟨_, hfound⟩⟩, ?_, fun hnone => ?_⟩
    · rintro found h
      obtain rfl := Except.ok.inj (hfound.symm.trans h)
      exact ⟨x, rfl, hfirst.imp fun y hy => and_congr_left fun _ => by rw [hmem, and_iff_right hy]⟩
    · exact absurd hfirst.1.2 (hnone x hx)
  · refine ⟨⟨fun ⟨found, h⟩ => ?_, fun ⟨x, hx, hname⟩ => ?_⟩, fun found h => ?_, fun _ => hfails⟩
    · exact absurd (hfails.symm.trans h) (by simp)
    · exact absurd hname (hnone x ((hmem x).mp hx).1 ((hmem x).mp hx).2)
    · exact absurd (hfails.symm.trans h) (by simp)

/-! ### Equal-named objects -/

/-- A type of objects that lead to any number of objects of the type. -/
def peerType : ClassType :=
  { schema := {
      name := "A"
      relations := .insert .empty "peers" {
        name := "peers", target := "A", multivalue := true, notNull := false
        aggregation := false, description := "" } }
    bases := []
    home := ⟨0⟩ }

/-- An object that leads to two objects of one name, and what is led to by these. -/
def twins (leadsOn : List ObjectStep) : World :=
  List.foldl (fun w step => step.run ⟨0⟩ w) bareWorld
    ([.make peerType "r", .make peerType "x", .make peerType "x", .make peerType "c",
      .set ⟨0⟩ "peers" (.objects [⟨1⟩, ⟨2⟩])] ++ leadsOn)

/-- Both objects of one name lead to objects of one name. -/
def alikeTwins : World :=
  twins [.make peerType "c", .set ⟨1⟩ "peers" (.objects [⟨3⟩]), .set ⟨2⟩ "peers" (.objects [⟨4⟩])]

/-- Only the second of two objects of one name leads to something. -/
def unlikeTwins : World := twins [.set ⟨2⟩ "peers" (.objects [⟨3⟩])]

/-- What two objects of one name lead to under one name is found. -/
theorem find_modes_alikeTwins :
    alikeTwins.LeadsAlike ⟨0⟩
      ∧ (∃ found, alikeTwins.find ⟨0⟩ .any (.exact "c") false = .ok found)
      ∧ alikeTwins.find ⟨0⟩ .any (.exact "d") false = .error (.objectNotFound "d@* under r@A") := by
  have hreach : ∀ x, alikeTwins.Leads ⟨0⟩ x → x ∈ (List.range 5).map ObjectId.mk := fun x =>
    Leads.mem_of_closed (by decide) (by decide +kernel)
  have halike : alikeTwins.LeadsAlike ⟨0⟩ := by
    have hall : ∀ x ∈ (List.range 5).map ObjectId.mk, ∀ y ∈ (List.range 5).map ObjectId.mk,
        alikeTwins.nameOf x = alikeTwins.nameOf y →
        (alikeTwins.related x).map alikeTwins.nameOf ⊆ (alikeTwins.related y).map alikeTwins.nameOf := by
      decide +kernel
    exact fun x y hx hy => hall x (hreach x hx) y (hreach y hy)
  obtain ⟨walked, -, hwalked, -, hcovers, hlists, os, hos, hexact⟩ := alikeTwins.find_modes ⟨0⟩ .any false
  obtain ⟨listed, hlisted, hselects⟩ := hlists .any fun _ h => Query.noConfusion h
  obtain rfl : os = listed := by simpa using hos.symm.trans hlisted
  refine ⟨halike, (hexact "c").1.mpr ?_, ?_⟩
  · have hleads : alikeTwins.Leads ⟨0⟩ ⟨3⟩ :=
      Relation.ReflTransGen.tail (.single (show ⟨1⟩ ∈ alikeTwins.related ⟨0⟩ by decide +kernel))
        (by decide +kernel)
    obtain ⟨y, hy, hname⟩ := List.mem_map.mp (hcovers halike ⟨3⟩ hleads)
    have hids : ∀ y ∈ (List.range 5).map ObjectId.mk, alikeTwins.nameOf y = alikeTwins.nameOf ⟨3⟩ →
        (alikeTwins.object y).id = "c" := by decide +kernel
    exact ⟨y, (hselects.mem_iff y).mpr ⟨hy, trivial, trivial⟩, hids y (hreach y (hwalked y hy)) hname⟩
  · have hids : ∀ x ∈ (List.range 5).map ObjectId.mk, (alikeTwins.object x).id ≠ "d" := by
      decide +kernel
    have hnone := (hexact "d").2.2 fun x hx =>
      hids x (hreach x (hwalked x ((hselects.mem_iff x).mp hx).1))
    have hroot : alikeTwins.nameOf ⟨0⟩ = "r@A" := by decide +kernel
    rwa [hroot] at hnone

/-- An object that only the second of two objects of one name leads to is not found. -/
theorem not_find_all_of_twin :
    ¬ ∀ (w : World) (root : ObjectId) (className id : Query) (subclasses : Bool),
      (∀ name, id ≠ .exact name) →
      ∃ os, w.find root className id subclasses = .ok (.many os)
        ∧ os.Pairwise (fun x y => (w.object x).record.Before (w.object y).record)
        ∧ (∀ x ∈ os, w.Leads root x ∧ w.HasClass className subclasses x
          ∧ id.Satisfied (w.object x).id)
        ∧ ∀ x, w.Leads root x → w.HasClass className subclasses x → id.Satisfied (w.object x).id →
          ∃ y ∈ os, w.nameOf y = w.nameOf x := by
  intro hclaim
  have hid : ∀ name, Query.any ≠ .exact name := fun _ h => Query.noConfusion h
  obtain ⟨os, hfind, -, -, hall⟩ := hclaim unlikeTwins ⟨0⟩ .any .any false hid
  obtain ⟨listed, hlisted, hselects⟩ := unlikeTwins.find_listing ⟨0⟩ .any .any false hid
  obtain rfl : os = listed := by simpa using hfind.symm.trans hlisted
  have hleads : unlikeTwins.Leads ⟨0⟩ ⟨3⟩ :=
    Relation.ReflTransGen.tail (.single (show ⟨2⟩ ∈ unlikeTwins.related ⟨0⟩ by decide +kernel))
      (by decide +kernel)
  obtain ⟨y, hy, hname⟩ := hall ⟨3⟩ hleads trivial trivial
  have hwalked := List.mem_map_of_mem (f := unlikeTwins.nameOf) ((hselects.mem_iff y).mp hy).1
  rw [hname] at hwalked
  exact absurd hwalked (by decide +kernel)

end World

end RecordGraph
