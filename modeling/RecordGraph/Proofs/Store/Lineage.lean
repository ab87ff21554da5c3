import RecordGraph.Proofs.Store.Holding

/-!
Ids within a hierarchy.  A record is made, or gets another id, only where no visible record with that id
is of a class above or below its own.  So along one line of inheritance every id is unique.  Classes side
by side below one class are not compared: below a class ids are unique exactly if all that derives from
it lies on one line.
-/

namespace RecordGraph

/-- All classes below a class lie on one line: of any two, one derives from the other. -/
def Hierarchy.LineBelow (h : Hierarchy) (className : String) : Prop :=
  ∀ a ∈ h.names, ∀ b ∈ h.names, h.isA a className = true → h.isA b className = true →
    h.isA a b = true ∨ h.isA b a = true

/-- No class derives from itself. -/
def Hierarchy.Acyclic (h : Hierarchy) : Prop :=
  ∀ e ∈ h.classes.entries, ∀ b ∈ e.2.superclasses, h.isA b e.1 = false

instance (h : Hierarchy) (className : String) : Decidable (h.LineBelow className) :=
  inferInstanceAs (Decidable (∀ a ∈ h.names, ∀ b ∈ h.names, h.isA a className = true →
    h.isA b className = true → h.isA a b = true ∨ h.isA b a = true))

instance (h : Hierarchy) : Decidable h.Acyclic :=
  inferInstanceAs (Decidable (∀ e ∈ h.classes.entries, ∀ b ∈ e.2.superclasses, h.isA b e.1 = false))

/-- Operations on records and on their fields. -/
def Operation.OnRecords : Operation → Prop
  | .createRecord _ _ _ => True
  | .destroyRecord _ => True
  | .renameRecord _ _ => True
  | .write _ _ _ _ => True
  | _ => False

theorem Operation.OnRecords.atomic {op : Operation} (hop : op.OnRecords) :
    Computation.Atomic op.run := by
  refine Store.atomic_run fun comment heq => ?_
  subst heq
  exact hop

namespace Store

variable {s t : Store} {op : Operation} {r x y : RecordRef} {place className id : String}

/-- The stores that runs of operations on records lead to, whether each operation succeeds or not. -/
inductive RecordRun (s : Store) : Store → Prop
  | start : RecordRun s s
  | step {t : Store} (op : Operation) (hop : op.OnRecords) (h : RecordRun s t) :
      RecordRun s (op.run t).2

/-! ### The invariant -/

/-- Where nothing conflicts with a class and an id, no visible record with that id is of a class above
or below. -/
theorem unrelated_of_conflict (hfree : s.conflict className id = none) (hx : s.Visible x)
    (hclass : x.className ∈ s.classes) (hid : x.id = id) :
    ¬ (s.hierarchy.isA x.className className = true ∨ s.hierarchy.isA className x.className = true) := by
  intro hrelated
  have hsome : (s.conflict className id).isSome = true :=
    conflict_isSome_iff.mpr ⟨x.className, hclass, hrelated, hid ▸ hx⟩
  rw [hfree] at hsome
  cases hsome

/-- Visible records are of visible classes, and two with one id are not on one line of inheritance. -/
structure Separated (s : Store) : Prop where
  declared : ∀ x, s.Visible x → x.className ∈ s.classes
  apart : ∀ x y, s.Visible x → s.Visible y → x.id = y.id →
    s.hierarchy.isA x.className y.className = true → x = y

namespace Separated

theorem of_visible (hs : s.Separated) (hscope : s.SameScope t) (hvisible : ∀ x, t.Visible x → s.Visible x) :
    t.Separated where
  declared x hx := by
    rw [hscope.classes]
    exact hs.declared x (hvisible x hx)
  apart x y hx hy hid hisA := by
    rw [hscope.hierarchy] at hisA
    exact hs.apart x y (hvisible x hx) (hvisible y hy) hid hisA

/-- One record may come to be visible with which no visible one conflicts. -/
theorem extend (hs : s.Separated) (hscope : s.SameScope t) (hdeclared : r.className ∈ s.classes)
    (hfree : s.conflict r.className r.id = none) (hvisible : ∀ x, t.Visible x → x = r ∨ s.Visible x) :
    t.Separated where
  declared x hx := by
    rw [hscope.classes]
    rcases hvisible x hx with rfl | hx
    · exact hdeclared
    · exact hs.declared x hx
  apart x y hx hy hid hisA := by
    rw [hscope.hierarchy] at hisA
    rcases hvisible x hx with rfl | hx <;> rcases hvisible y hy with rfl | hy
    · rfl
    · exact absurd (Or.inr hisA) (unrelated_of_conflict hfree hy (hs.declared y hy) hid.symm)
    · exact absurd (Or.inl hisA) (unrelated_of_conflict hfree hx (hs.declared x hx) hid)
    · exact hs.apart x y hx hy hid hisA

theorem transition (hs : s.Separated) (hop : op.OnRecords) (ht : Transition s op t) :
    t.Separated ∧ s.SameScope t := by
  cases ht with
  | @createRecord place className id hdeclared _ hfree =>
    have hscope := sameScope_withRecord s place ⟨className, id⟩
    exact ⟨hs.extend (r := ⟨className, id⟩) hscope hdeclared hfree fun x => visible_withRecord, hscope⟩
  | @destroyRecord r place _ _ _ =>
    have hscope := sameScope_erased s place r
    exact ⟨hs.of_visible hscope fun x => visible_erased, hscope⟩
  | @renameRecord r newId place hplace _ hfree =>
    have hscope := sameScope_withRenamed s place r ⟨r.className, newId⟩
    have hvisible : s.Visible r := by
      rw [Visible, hplace]
      rfl
    have hdeclared : r.className ∈ s.classes := hs.declared r hvisible
    exact ⟨hs.extend (r := ⟨r.className, newId⟩) hscope hdeclared hfree
      fun x => visible_withRenamed hplace,
      hscope⟩
  | @write r name place accessor v hwritable =>
    have hshape : s.SameShape (s.put place r name v) :=
      sameShape_put (writePlace_eq_ok.mp hwritable).1
    refine ⟨hs.of_visible hshape.scope fun x hx => ?_, hshape.scope⟩
    rwa [Visible, hshape.location] at hx
  | _ => exact hop.elim

/-- Whatever the operations on records are, ids stay unique along every line of inheritance, and classes
stay what they were. -/
theorem run (hs : s.Separated) (hrun : s.RecordRun t) : t.Separated ∧ s.SameScope t := by
  induction hrun with
  | start => exact ⟨hs, .refl s⟩
  | @step t op hop _ ih =>
    obtain ⟨hseparated, hscope⟩ := ih
    rcases hresult : op.run t with ⟨e | u, t'⟩
    · obtain rfl := hop.atomic t e t' hresult
      exact ⟨hseparated, hscope⟩
    · obtain ⟨hnext, hstep⟩ := hseparated.transition hop (transition_of_run hresult)
      exact ⟨hnext, hscope.trans hstep⟩

end Separated

/-! ### Classes below a class -/

/-- At most one visible record with an id is of a class or of one that derives from it. -/
def UniqueBelow (s : Store) (className id : String) : Prop :=
  ∀ x y, s.Visible x → s.Visible y → x.id = id → y.id = id →
    s.hierarchy.isA x.className className = true → s.hierarchy.isA y.className className = true →
    x = y

/-- Below a class of which all derived ones lie on one line ids are unique. -/
theorem Separated.uniqueBelow (hs : s.Separated) (hline : s.hierarchy.LineBelow className)
    (id : String) : s.UniqueBelow className id := by
  intro x y hx hy hxid hyid hxbelow hybelow
  have hid : x.id = y.id := hxid.trans hyid.symm
  rcases hline _ (hs.declared x hx) _ (hs.declared y hy) hxbelow hybelow with hxy | hyx
  · exact hs.apart x y hx hy hid hxy
  · exact (hs.apart y x hy hx hid.symm hyx).symm

/-- Where an id is unique below a class, looking the record up gives the one that there is. -/
theorem Separated.getRecord_eq_ok_iff (hs : s.Separated) (hunique : s.UniqueBelow className id) :
    s.getRecord className id = .ok r
      ↔ s.Visible r ∧ r.id = id ∧ s.hierarchy.isA r.className className = true := by
  rw [getRecord_eq_ok]
  constructor
  · intro hfind
    obtain ⟨hvisible, hid, hisA, -⟩ := find_eq_some hfind
    exact ⟨hvisible, hid, hisA⟩
  · rintro ⟨hvisible, rfl, hisA⟩
    have hsome : (s.find className r.id).isSome = true :=
      find_isSome_iff.mpr ⟨r.className, hs.declared r hvisible, hisA, hvisible⟩
    obtain ⟨x, hx⟩ := Option.isSome_iff_exists.mp hsome
    obtain ⟨hxvisible, hxid, hxisA, -⟩ := find_eq_some hx
    rw [hx, hunique x r hxvisible hvisible hxid rfl hxisA hisA]

/-- A store with one loaded database, which may be written to, and without visible records. -/
structure Blank (s : Store) (place : String) : Prop where
  loaded : s.loaded = [place]
  writable : s.checkWritable place = .ok ()
  unoccupied : ∀ r, ¬ s.Visible r

namespace Blank

variable (hs : s.Blank place)

include hs

theorem separated : s.Separated :=
  ⟨fun x hx => absurd hx (hs.unoccupied x), fun x _ hx => absurd hx (hs.unoccupied x)⟩

theorem mem_visible : place ∈ s.visible :=
  NameGraph.mem_reach_iff.mpr ⟨place, by rw [hs.loaded, List.mem_singleton], .refl place⟩

theorem conflict_eq_none (className id : String) : s.conflict className id = none := by
  rw [← Option.not_isSome_iff_eq_none, conflict_isSome_iff]
  rintro ⟨c, -, -, hvisible⟩
  exact hs.unoccupied _ hvisible

end Blank

theorem RecordRun.createRecord (h : s.RecordRun t) (hdeclared : className ∈ t.classes)
    (hwritable : t.checkWritable place = .ok ()) (hfree : t.conflict className id = none) :
    s.RecordRun (t.withRecord place ⟨className, id⟩) := by
  have hrun : (Operation.createRecord place className id).run t
      = (.ok (), t.withRecord place ⟨className, id⟩) :=
    Computation.bind_of_ok (createRecord_of_free hdeclared hwritable hfree)
  have hstep := h.step (.createRecord place className id) trivial
  rwa [hrun] at hstep

theorem checkWritable_withRecord (hwritable : s.checkWritable place = .ok ()) :
    (s.withRecord place r).checkWritable place = .ok () := by
  obtain ⟨d, hd, hopen⟩ := checkWritable_eq_ok.mp hwritable
  refine checkWritable_eq_ok.mpr ⟨{ d with records := d.records.insert r .empty }, ?_, hopen⟩
  rw [get?_withRecord, if_pos rfl, hd]
  rfl

theorem visible_withRecord_self (hplace : place ∈ s.visible)
    (hwritable : s.checkWritable place = .ok ()) (hnew : ¬ s.Visible r) :
    (s.withRecord place r).Visible r := by
  obtain ⟨d, hd⟩ := get?_of_checkWritable hwritable
  rw [Visible, location_withRecord_self hd hplace hnew]
  rfl

/-- Two classes neither of which derives from the other can have records with one id. -/
theorem Blank.exists_both {a b : String} (hs : s.Blank place) (ha : a ∈ s.classes)
    (hb : b ∈ s.classes) (hab : ¬ (s.hierarchy.isA a b = true ∨ s.hierarchy.isA b a = true))
    (id : String) : ∃ t, s.RecordRun t ∧ t.Visible ⟨a, id⟩ ∧ t.Visible ⟨b, id⟩ := by
  have hscope := sameScope_withRecord s place ⟨a, id⟩
  have hfirst : (s.withRecord place ⟨a, id⟩).Visible ⟨a, id⟩ :=
    visible_withRecord_self hs.mem_visible hs.writable (hs.unoccupied _)
  have hwritable : (s.withRecord place ⟨a, id⟩).checkWritable place = .ok () :=
    checkWritable_withRecord hs.writable
  have hclass : b ∈ (s.withRecord place ⟨a, id⟩).classes := by rwa [hscope.classes]
  -- the first record is the only one, and its class is not related to the second one
  have hfree : (s.withRecord place ⟨a, id⟩).conflict b id = none := by
    rw [← Option.not_isSome_iff_eq_none, conflict_isSome_iff, hscope.hierarchy]
    rintro ⟨c, -, hrelated, hvisible⟩
    rcases visible_withRecord hvisible with heq | hbefore
    · cases heq
      exact hab hrelated
    · exact hs.unoccupied _ hbefore
  have hne : (⟨a, id⟩ : RecordRef) ≠ ⟨b, id⟩ := by
    intro heq
    cases heq
    exact hab (Or.inl (Hierarchy.isA_refl _ _))
  refine ⟨(s.withRecord place ⟨a, id⟩).withRecord place ⟨b, id⟩, ?_, ?_, ?_⟩
  · exact (RecordRun.start.createRecord ha hs.writable (hs.conflict_eq_none a id)).createRecord
      hclass hwritable hfree
  · rw [Visible, location_withRecord hne]
    exact hfirst
  · refine visible_withRecord_self ?_ hwritable (not_visible_of_conflict hclass hfree)
    rw [hscope.visible]
    exact hs.mem_visible

/-- Starting without records, operations on records keep ids unique below a class, whatever they are,
exactly if all classes below it lie on one line.  Along every line of inheritance they keep them unique
in any case; and where an id is unique below a class, looking it up is not ambiguous. -/
theorem Blank.uniqueBelow_iff (hs : s.Blank place) (className : String) :
    ((∀ t, s.RecordRun t → ∀ id, t.UniqueBelow className id) ↔ s.hierarchy.LineBelow className)
      ∧ ∀ t, s.RecordRun t → t.hierarchy = s.hierarchy
        ∧ (∀ x y, t.Visible x → t.Visible y → x.id = y.id →
          s.hierarchy.isA x.className y.className = true → x = y)
        ∧ ∀ id, t.UniqueBelow className id → ∀ r, t.getRecord className id = .ok r
          ↔ t.Visible r ∧ r.id = id ∧ s.hierarchy.isA r.className className = true := by
  refine ⟨⟨fun hunique a ha b hb hbelow hbelow' => Decidable.byContradiction fun hab => ?_,
    fun hline t hrun id => ?_⟩, fun t hrun => ?_⟩
  · obtain ⟨t, hrun, hx, hy⟩ := hs.exists_both ha hb hab ""
    have hscope := (hs.separated.run hrun).2
    have heq := hunique t hrun "" ⟨a, ""⟩ ⟨b, ""⟩ hx hy rfl rfl (by rwa [hscope.hierarchy])
      (by rwa [hscope.hierarchy])
    cases heq
    exact hab (Or.inl (Hierarchy.isA_refl _ _))
  · obtain ⟨hseparated, hscope⟩ := hs.separated.run hrun
    refine hseparated.uniqueBelow ?_ id
    rwa [hscope.hierarchy]
  · obtain ⟨hseparated, hscope⟩ := hs.separated.run hrun
    rw [← hscope.hierarchy]
    exact ⟨rfl, hseparated.apart, fun id hunique r => hseparated.getRecord_eq_ok_iff hunique⟩

/-- An empty database, and two classes that derive from a third one. -/
def siblings : Store :=
  after [
    .addSchema "s" {
      classes := [{ name := "Base" }, { name := "Left", superclasses := ["Base"] },
        { name := "Right", superclasses := ["Base"] }] },
    .createDatabase "d" ["s"]]

theorem blank_siblings : siblings.Blank "d" where
  loaded := rfl
  writable := rfl
  unoccupied r hr := by
    have hnone : siblings.allRecords = [] := rfl
    have hmem := hr.mem_allRecords
    rw [hnone] at hmem
    exact List.not_mem_nil hmem

/-- Ids stay unique below one of the two classes, but not below the one that they derive from. -/
theorem uniqueBelow_iff_siblings :
    siblings.Blank "d"
      ∧ (∀ t, siblings.RecordRun t → ∀ id, t.UniqueBelow "Left" id)
      ∧ ¬ ∀ t, siblings.RecordRun t → ∀ id, t.UniqueBelow "Base" id := by
  have hleft : siblings.hierarchy.LineBelow "Left" := by decide +kernel
  have hbase : ¬ siblings.hierarchy.LineBelow "Base" := by decide +kernel
  exact ⟨blank_siblings, (blank_siblings.uniqueBelow_iff "Left").1.mpr hleft,
    fun hunique => hbase ((blank_siblings.uniqueBelow_iff "Base").1.mp hunique)⟩

/-- Two records of classes that derive from one class can have the same id. -/
theorem not_uniqueBelow_of_siblings :
    ¬ ∀ (s t : Store) (place className id : String), s.Reachable → s.Blank place →
      s.hierarchy.Acyclic → s.RecordRun t → t.UniqueBelow className id := by
  intro hclaim
  obtain ⟨t, hrun, hleft, hright⟩ := blank_siblings.exists_both (a := "Left") (b := "Right")
    (by decide +kernel) (by decide +kernel) (by decide +kernel) "x"
  have hunique := hclaim siblings t "d" "Base" "x" (reachableBy_after fun _ _ => trivial)
    blank_siblings (by decide +kernel) hrun
  have hsame := hunique ⟨"Left", "x"⟩ ⟨"Right", "x"⟩ hleft hright rfl rfl
  rw [(blank_siblings.separated.run hrun).2.hierarchy] at hsame
  have hclasses := congrArg RecordRef.className (hsame (by decide +kernel) (by decide +kernel))
  exact absurd hclasses (by decide)

end Store

end RecordGraph
