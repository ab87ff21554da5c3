import RecordGraph.Proofs.Object.Tracking
import RecordGraph.Proofs.Schema.Acceptance

/-!
Validity of fields.  What a checked write, a reading or another id leaves in an object is valid for its
class.  A copy takes over what the other object holds without a check, so it keeps objects valid just
when all that it takes over is valid for the class that takes it.
-/

namespace RecordGraph

open RecordGraph.Computation

namespace World

variable {u v w : World} {o p : Object} {name : String} {f g : Field}

/-- A field that is valid for the class of an object: coercion would leave the value of an attribute as
it is, floats of 32 bits aside, and a relation leads to as many objects as it may, of its class. -/
inductive Valid (w : World) (o : Object) (name : String) : Field → Prop
  | float {a : Attribute} {f : Field} (known : o.schema.attribute? name = some a)
      (float : a.type = .float) : Valid w o name f
  | value {a : Attribute} {v : Value} (known : o.schema.attribute? name = some a)
      (double : a.type ≠ .float)
      (stable : a.coerce o.fullName (w.isKnown o.type.home) v = .ok v) : Valid w o name (.value v)
  | relation {r : Relation} {f : Field} (free : o.schema.attribute? name = none)
      (known : o.schema.relation? name = some r) (points : f.Points r.multivalue)
      (targets : ∀ t ∈ f.targets, (w.object t).type.isA r.target = true) : Valid w o name f

/-- One world comes from another without losing an object or the name of a class, and without changing
the type of an object. -/
structure Widens (v w : World) : Prop where
  objects : v.objects.size ≤ w.objects.size
  types : ∀ x : ObjectId, x.index < v.objects.size → (w.object x).type = (v.object x).type
  known : ∀ r c, v.isKnown r c = true → w.isKnown r c = true

theorem Widens.refl (w : World) : w.Widens w := ⟨Nat.le_refl _, fun _ _ => rfl, fun _ _ h => h⟩

theorem Widens.trans (huv : u.Widens v) (hvw : v.Widens w) : u.Widens w where
  objects := Nat.le_trans huv.objects hvw.objects
  types x hx := (hvw.types x (Nat.lt_of_lt_of_le hx huv.objects)).trans (huv.types x hx)
  known r c h := hvw.known r c (huv.known r c h)

/-- What is valid stays so for objects whose classes declare the field alike. -/
theorem Valid.transfer (h : v.Valid o name f) (hloaded : o.schema.Loaded)
    (hhome : p.type.home = o.type.home)
    (hattribute : p.schema.attribute? name = o.schema.attribute? name)
    (hrelation : p.schema.relation? name = o.schema.relation? name)
    (htargets : ∀ t ∈ f.targets, (w.object t).type = (v.object t).type)
    (hknown : ∀ r c, v.isKnown r c = true → w.isKnown r c = true) : w.Valid p name f := by
  cases h with
  | float known float => exact .float (hattribute.trans known) float
  | value known double stable =>
    refine .value (hattribute.trans known) double ?_
    exact Attribute.coerce_self_mono double (hloaded.suits known) (hhome ▸ hknown _) stable
  | relation free known points targets =>
    refine .relation (hattribute.trans free) (hrelation.trans known) points fun t ht => ?_
    rw [htargets t ht]
    exact targets t ht

/-- What is valid stays so in a wider world. -/
theorem Valid.widen (h : v.Valid o name f) (hloaded : o.schema.Loaded) (hw : v.Widens w)
    (htype : p.type = o.type) (hmade : ∀ t ∈ f.targets, t.index < v.objects.size) :
    w.Valid p name f := by
  have hschema : p.schema = o.schema := congrArg ClassType.schema htype
  exact h.transfer hloaded (congrArg ClassType.home htype) (by rw [hschema]) (by rw [hschema])
    (fun t ht => hw.types t (hmade t ht)) hw.known

/-- What a checked write puts into a field is valid. -/
theorem accept_valid (hloaded : o.schema.Loaded) (h : w.accept o name f = .ok g) :
    g = .unset ∨ g.isUnset = false ∧ o.schema.hasField name = true ∧ w.Valid o name g
      ∧ ∀ t ∈ g.targets, t ∈ f.targets := by
  unfold accept at h
  split at h
  · cases h
    exact Or.inl rfl
  · rename_i hset
    refine Or.inr ?_
    cases hattribute : o.schema.attribute? name with
    | some a =>
      have hfield := ClassSchema.hasField_of_attribute hattribute
      simp only [hattribute] at h
      cases f with
      | value v =>
        obtain ⟨v', hcoerce, hpure⟩ := except_bind_eq_ok.mp h
        cases hpure
        have hnull : v.isNull = false := by simpa [Field.isUnset] using hset
        refine ⟨Attribute.coerce_not_null hnull hcoerce, hfield, ?_, fun t ht => by cases ht⟩
        by_cases hfloat : a.type = .float
        · exact .float hattribute hfloat
        · exact .value hattribute hfloat ((Attribute.coerce_coerced hfloat (hloaded.suits hattribute)
            hcoerce).coerce_eq hfloat (hloaded.suits hattribute))
      | _ => cases h
    | none =>
      simp only [hattribute] at h
      cases hrelation : o.schema.relation? name with
      | some r =>
        have hfield := ClassSchema.hasField_of_relation hrelation
        simp only [hrelation] at h
        obtain ⟨rfl, hpoints, htargets⟩ := checkTargets_eq_ok.mp h
        refine ⟨by simpa using hset, hfield, ?_, fun t ht => ht⟩
        exact .relation hattribute hrelation hpoints htargets
      | none =>
        simp only [hrelation] at h
        cases h

/-! ### Changing one object -/

/-- One world comes from another by replacing one object, the type of which stays. -/
structure Replaces (v w : World) (o : ObjectId) (p : Object) : Prop where
  widens : v.Widens w
  size : w.objects.size = v.objects.size
  known : ∀ r c, w.isKnown r c = v.isKnown r c
  object : ∀ x, w.object x = if x = o then p else v.object x

variable {x : ObjectId}

theorem Replaces.refl (w : World) (x : ObjectId) : w.Replaces w x (w.object x) where
  widens := .refl w
  size := rfl
  known _ _ := rfl
  object y := by
    split
    · rename_i hy
      rw [hy]
    · rfl

theorem replaces_changeObject {h : Object → Object} (hx : x.index < w.objects.size)
    (htype : (h (w.object x)).type = (w.object x).type) :
    w.Replaces (w.changeObject x h) x (h (w.object x)) := by
  have hobject : ∀ y, (w.changeObject x h).object y = if y = x then h (w.object x) else w.object y :=
    fun y => by simp [object_changeObject, hx]
  have hsize : (w.changeObject x h).objects.size = w.objects.size := Arena.size_change ..
  refine ⟨⟨Nat.le_of_eq hsize.symm, fun y _ => ?_, fun _ _ h => h⟩, hsize, fun _ _ => rfl, hobject⟩
  rw [hobject]
  split
  · rename_i hy
    rw [hy, htype]
  · rfl

theorem Replaces.trans {q : Object} (huv : u.Replaces v x p) (hvw : v.Replaces w x q) :
    u.Replaces w x q where
  widens := huv.widens.trans hvw.widens
  size := hvw.size.trans huv.size
  known r c := (hvw.known r c).trans (huv.known r c)
  object y := by
    rw [hvw.object, huv.object]
    split <;> rfl

theorem Replaces.self (h : v.Replaces w x p) : w.object x = p := by
  rw [h.object, if_pos rfl]

theorem isKnown_changeRegistry {r : RegistryId} {h : Registry → Registry}
    (hh : ∀ reg, (h reg).known = reg.known) (s : RegistryId) (c : String) :
    (w.changeRegistry r h).isKnown s c = w.isKnown s c := by
  unfold isKnown Registry.isKnown
  rw [registry_changeRegistry]
  split
  · rename_i hs
    rw [hh, hs.1]
  · rfl

theorem Replaces.changeRegistry {r : RegistryId} {h : Registry → Registry} (hr : v.Replaces w x p)
    (hh : ∀ reg, (h reg).known = reg.known) : v.Replaces (w.changeRegistry r h) x p where
  widens := ⟨hr.widens.objects, hr.widens.types, fun s c hc => by
    rw [isKnown_changeRegistry hh]
    exact hr.widens.known s c hc⟩
  size := hr.size
  known s c := (isKnown_changeRegistry hh s c).trans (hr.known s c)
  object := hr.object

theorem replaces_writeField (hx : x.index < w.objects.size) :
    w.Replaces (w.writeField x name f) x ((w.object x).write name f) := by
  obtain ⟨touched, heq⟩ := Object.write_eq (w.object x) name f
  have hwrite := replaces_changeObject (h := fun object => object.write name f) hx
    (by rw [heq]; rfl)
  exact hwrite.changeRegistry fun _ => rfl

theorem replaces_setId (id : String) (hx : x.index < w.objects.size) :
    w.Replaces (w.setId x id) x { w.object x with id } := by
  have hset := replaces_changeObject (h := fun _ => { w.object x with id }) hx rfl
  refine hset.changeRegistry fun reg => ?_
  unfold Registry.noteRenamed
  split <;> rfl

end World

namespace Object

variable {o : Object} {name other : String} {f : Field} {size : Nat}

/-- An object of a loaded class that holds something under each name it holds, which is the name of a
field, and points only to objects that were made. -/
structure Kept (size : Nat) (o : Object) : Prop where
  loaded : o.schema.Loaded
  id : o.fields.get? "id" = none
  held : ∀ name f, o.fields.get? name = some f →
    f.isUnset = false ∧ o.schema.hasField name = true ∧ ∀ t ∈ f.targets, t.index < size

theorem kept_new {type : ClassType} (hloaded : type.schema.Loaded) (id : String) :
    Kept size { type, id } := ⟨hloaded, rfl, fun _ _ h => by simp at h⟩

theorem Kept.mono {size' : Nat} (h : o.Kept size) (hle : size ≤ size') : o.Kept size' where
  loaded := h.loaded
  id := h.id
  held name f hf := by
    obtain ⟨hset, hfield, htargets⟩ := h.held name f hf
    exact ⟨hset, hfield, fun t ht => Nat.lt_of_lt_of_le (htargets t ht) hle⟩

theorem type_write (o : Object) (name : String) (f : Field) : (o.write name f).type = o.type := by
  obtain ⟨touched, heq⟩ := write_eq o name f
  rw [heq]
  rfl

theorem get?_write : (o.write name f).fields.get? other
    = if other = name then (if f.isUnset then none else some f) else o.fields.get? other := by
  obtain ⟨touched, heq⟩ := write_eq o name f
  rw [heq]
  unfold load
  cases f.isUnset with
  | true => exact OrderedMap.get?_erase ..
  | false => exact OrderedMap.get?_insert ..

theorem type_foldl_write (entries : List (String × Field)) (o : Object) :
    (entries.foldl (fun p e => p.write e.1 e.2) o).type = o.type := by
  induction entries generalizing o with
  | nil => rfl
  | cons e entries ih => exact (ih _).trans (type_write o e.1 e.2)

/-- What a list of writes with different names leaves in a field. -/
theorem get?_foldl_write {entries : List (String × Field)}
    (hset : ∀ e ∈ entries, e.2.isUnset = false) (hnodup : (entries.map Prod.fst).Nodup) :
    (entries.foldl (fun p e => p.write e.1 e.2) o).fields.get? name = some f
      ↔ (name, f) ∈ entries
        ∨ name ∉ entries.map Prod.fst ∧ o.fields.get? name = some f := by
  induction entries generalizing o with
  | nil => simp
  | cons e entries ih =>
    obtain ⟨key, g⟩ := e
    rw [List.map_cons, List.nodup_cons] at hnodup
    have hg : g.isUnset = false := hset (key, g) List.mem_cons_self
    rw [List.foldl_cons, ih (fun e he => hset e (List.mem_cons_of_mem _ he)) hnodup.2, get?_write]
    by_cases hkey : name = key
    · subst hkey
      have hnone : (name, f) ∉ entries := fun hmem =>
        hnodup.1 (List.mem_map.mpr ⟨(name, f), hmem, rfl⟩)
      have hnew : name ∉ entries.map Prod.fst := hnodup.1
      simp [hnone, hnew, hg, eq_comm]
    · simp [hkey]

/-- Reading fails, leaves the object as it is, or makes it keep what it started with. -/
theorem read_cases (o : Object) (name : String) :
    (∃ e, o.read name = .error e) ∨ (∃ f, o.read name = .ok (f, o))
      ∨ ∃ f, name ≠ "id" ∧ o.fields.get? name = none ∧ o.initial name = .ok f ∧ f ≠ .unset
        ∧ o.read name = .ok (f, { o with fields := o.fields.insert name f }) := by
  unfold read
  split
  · exact Or.inr (Or.inl ⟨_, rfl⟩)
  · rename_i hname
    split
    · exact Or.inr (Or.inl ⟨_, rfl⟩)
    · rename_i hnone
      cases hinitial : o.initial name with
      | error e => exact Or.inl ⟨e, rfl⟩
      | ok f =>
        cases f with
        | unset => exact Or.inr (Or.inl ⟨_, rfl⟩)
        | _ => exact Or.inr (Or.inr ⟨_, hname, hnone, rfl, Field.noConfusion, rfl⟩)

/-- The class that the initial value of a field refers to, if it refers to classes, is known. -/
def InitialKnown (w : World) (o : Object) (name : String) : Prop :=
  ∀ a v, o.schema.attribute? name = some a → a.type = .text .className → a.initial? = some v →
    w.Valid o name (.value v)

/-- What a field starts with is valid. -/
theorem initial_valid {w : World} (hloaded : o.schema.Loaded) (hinitial : o.initial name = .ok f)
    (hne : f ≠ .unset) :
    f.isUnset = false ∧ o.schema.hasField name = true ∧ f.targets = []
      ∧ (o.InitialKnown w name → w.Valid o name f) := by
  unfold ClassSchema.hasField
  rw [Bool.or_eq_true, OrderedMap.contains_iff_exists_get?, OrderedMap.contains_iff_exists_get?]
  cases hattribute : o.schema.attribute? name with
  | some a =>
    rw [initial_of_attribute hattribute] at hinitial
    have hfield : ∃ a, o.schema.attributes.get? name = some a := ⟨a, hattribute⟩
    split at hinitial
    · rename_i v hv
      cases hinitial
      refine ⟨(hloaded.initialSettled hattribute v hv).2, Or.inl hfield, rfl, fun hknown => ?_⟩
      by_cases hfloat : a.type = .float
      · exact .float hattribute hfloat
      · by_cases hclass : a.type = .text .className
        · exact hknown a v hattribute hclass hv
        · exact .value hattribute hfloat (hloaded.coerce_initial hattribute hfloat hclass hv)
    · split at hinitial
      · rename_i hmulti
        cases hinitial
        refine ⟨rfl, Or.inl hfield, rfl, fun _ => ?_⟩
        by_cases hfloat : a.type = .float
        · exact .float hattribute hfloat
        · exact .value hattribute hfloat (Attribute.coerce_eq_ok.mpr
            (Or.inr (Or.inr ⟨hmulti, [], [], rfl, rfl, rfl⟩)))
      · cases hinitial
        exact absurd rfl hne
  | none =>
    cases hrelation : o.schema.relation? name with
    | some r =>
      rw [initial_of_relation hattribute hrelation] at hinitial
      split at hinitial
      · rename_i hmulti
        cases hinitial
        exact ⟨rfl, Or.inr ⟨r, hrelation⟩, rfl,
          fun _ => .relation hattribute hrelation hmulti fun t ht => by cases ht⟩
      · cases hinitial
        exact absurd rfl hne
    | none =>
      unfold initial at hinitial
      simp [hattribute, hrelation] at hinitial

/-- What a single change makes of an object: it changes its header, or puts something into a field that
is valid under some condition. -/
inductive Becomes (w : World) (condition : Prop) (o : Object) : Object → Prop
  | header {p : Object} (type : p.type = o.type) (fields : p.fields = o.fields) :
      Becomes w condition o p
  | field {p : Object} {name : String} {f : Field} (type : p.type = o.type) (hname : name ≠ "id")
      (fields : ∀ other, p.fields.get? other
        = if other = name then (if f.isUnset then none else some f) else o.fields.get? other)
      (made : f.isUnset = false →
        o.schema.hasField name = true ∧ ∀ t ∈ f.targets, t.index < w.objects.size)
      (valid : f.isUnset = false → condition → w.Valid o name f) : Becomes w condition o p

namespace Becomes

variable {w : World} {condition : Prop} {p : Object}

theorem type_eq (h : Becomes w condition o p) : p.type = o.type := by
  cases h <;> assumption

theorem kept (h : Becomes w condition o p) (ho : o.Kept w.objects.size) :
    p.Kept w.objects.size := by
  have hschema : p.schema = o.schema := congrArg ClassType.schema h.type_eq
  refine ⟨hschema ▸ ho.loaded, ?_, fun other g hg => ?_⟩
  · cases h with
    | header _ fields => exact fields ▸ ho.id
    | field _ hname fields => rw [fields, if_neg hname.symm, ho.id]
  · rw [hschema]
    cases h with
    | header _ fields => exact ho.held other g (fields ▸ hg)
    | field _ _ fields made =>
      rw [fields] at hg
      split at hg
      · rename_i heq
        split at hg
        · cases hg
        · rename_i hset
          cases hg
          exact ⟨by simpa using hset, heq ▸ made (by simpa using hset)⟩
      · exact ho.held other g hg

theorem valid (h : Becomes w condition o p) (hcondition : condition)
    (ho : ∀ name f, o.fields.get? name = some f → w.Valid o name f) :
    ∀ name f, p.fields.get? name = some f → w.Valid o name f := by
  intro other g hg
  cases h with
  | header _ fields => exact ho other g (fields ▸ hg)
  | field _ _ fields _ valid =>
    rw [fields] at hg
    split at hg
    · rename_i heq
      split at hg
      · cases hg
      · rename_i hset
        cases hg
        exact heq ▸ valid (by simpa using hset) hcondition
    · exact ho other g hg

end Becomes

end Object

/-! ### Calls -/

namespace ObjectId

variable {w : World} {o other : ObjectId} {name id : String} {f : Field}

theorem get_becomes (ho : o.index < w.objects.size) (hloaded : (w.object o).schema.Loaded)
    (name : String) :
    ∃ p, w.Replaces (o.get name w).2 o p ∧ (w.object o).Becomes w
      (name ≠ "id" → (w.object o).fields.get? name = none → (w.object o).InitialKnown w name) p := by
  have hask : (Action.ask fun w => (w.object o).read name) w = ((w.object o).read name, w) :=
    Action.ask_apply _ w
  unfold get
  rcases (w.object o).read_cases name with
    ⟨e, hread⟩ | ⟨g, hread⟩ | ⟨g, hname, hnone, hinitial, hne, hread⟩
  all_goals rw [hread] at hask
  · rw [bind_of_error hask]
    exact ⟨_, .refl w o, .header rfl rfl⟩
  · rw [bind_of_ok hask]
    exact ⟨_, World.replaces_changeObject ho rfl, .header rfl rfl⟩
  · rw [bind_of_ok hask]
    obtain ⟨hset, hfield, htargets, hvalid⟩ := Object.initial_valid (w := w) hloaded hinitial hne
    refine ⟨_, World.replaces_changeObject ho rfl, .field rfl hname (f := g) (fun other => ?_)
      (fun _ => ⟨hfield, by simp [htargets]⟩) fun _ hknown => hvalid (hknown hname hnone)⟩
    rw [hset]
    exact OrderedMap.get?_insert ..

theorem set_becomes (name : String) (ho : o.index < w.objects.size)
    (hloaded : (w.object o).schema.Loaded) (hmade : ∀ t ∈ f.targets, t.index < w.objects.size) :
    ∃ p, w.Replaces (o.set name f w).2 o p ∧ (w.object o).Becomes w True p := by
  rcases World.set_cases w o name f with hset | ⟨-, id, hset⟩ | ⟨hname, g, haccept, hset⟩
  all_goals rw [hset]
  · exact ⟨_, .refl w o, .header rfl rfl⟩
  · exact ⟨_, World.replaces_setId _ ho, .header rfl rfl⟩
  · refine ⟨_, World.replaces_writeField ho, .field (f := g) (Object.type_write ..) hname
      (fun other => Object.get?_write) ?_ ?_⟩
    · rcases World.accept_valid hloaded haccept with rfl | ⟨-, hfield, -, htargets⟩
      · exact fun h => Bool.noConfusion h
      · exact fun _ => ⟨hfield, fun t ht => hmade t (htargets t ht)⟩
    · rcases World.accept_valid hloaded haccept with rfl | ⟨-, -, hvalid, -⟩
      · exact fun h => Bool.noConfusion h
      · exact fun _ _ => hvalid

theorem rename_becomes (ho : o.index < w.objects.size) (id : String) :
    ∃ p, w.Replaces (o.rename id w).2 o p ∧ (w.object o).Becomes w True p := by
  change ∃ p, w.Replaces (if id = (w.object o).id then w else (w.changeObject o fun object =>
    { object with oldId := some object.storedId }).setId o id) o p ∧ _
  split
  · exact ⟨_, .refl w o, .header rfl rfl⟩
  · have hnoted := World.replaces_changeObject (w := w)
      (h := fun object => { object with oldId := some object.storedId }) ho rfl
    have hmoved := hnoted.trans (World.replaces_setId id (hnoted.size ▸ ho))
    rw [hnoted.self] at hmoved
    exact ⟨_, hmoved, .header rfl rfl⟩

/-- Unchecked writes of fields that the class has, none of them the id, come one after the other. -/
theorem forM_setUnchecked_replaces {entries : List (String × Field)} (ho : o.index < w.objects.size)
    (hname : ∀ e ∈ entries, e.1 ≠ "id")
    (hhas : ∀ e ∈ entries, (w.object o).schema.hasField e.1 = true) :
    w.Replaces ((entries.forM fun e => o.setUnchecked e.1 e.2) w).2 o
      (entries.foldl (fun p e => p.write e.1 e.2) (w.object o)) := by
  induction entries generalizing w with
  | nil => exact .refl w o
  | cons e entries ih =>
    have hwrite : w.Replaces (w.writeField o e.1 e.2) o ((w.object o).write e.1 e.2) :=
      World.replaces_writeField ho
    have hrun : o.setUnchecked e.1 e.2 w = (.ok (), w.writeField o e.1 e.2) := by
      rw [ObjectStep.setUnchecked_apply fun ⟨_, hid, _⟩ => hname e List.mem_cons_self hid,
        if_pos (hhas e List.mem_cons_self)]
    have hrest := ih (hwrite.size ▸ ho) (fun e he => hname e (List.mem_cons_of_mem _ he))
      fun e' he' => by
        rw [hwrite.self, Object.schema, Object.type_write]
        exact hhas e' (List.mem_cons_of_mem _ he')
    rw [hwrite.self] at hrest
    have hstep : (e :: entries).forM (fun e => o.setUnchecked e.1 e.2) w
        = entries.forM (fun e => o.setUnchecked e.1 e.2) (w.writeField o e.1 e.2) :=
      bind_of_ok hrun
    rw [hstep]
    exact hwrite.trans hrest

/-- A copy takes over what the other object holds in the fields that the class has. -/
theorem copy_replaces (ho : o.index < w.objects.size) {size : Nat}
    (hother : (w.object other).Kept size) :
    ∃ p, w.Replaces (o.copy other w).2 o p ∧ p.type = (w.object o).type
      ∧ ∀ name f, p.fields.get? name = some f ↔
        if (w.object o).schema.hasField name = true
            ∧ ((w.object other).fields.get? name).isSome = true then
          (w.object other).fields.get? name = some f
        else (w.object o).fields.get? name = some f := by
  let entries := (w.object other).fields.entries.filter fun e => (w.object o).schema.hasField e.1
  have hentry : ∀ {name f}, (name, f) ∈ entries ↔ (w.object other).fields.get? name = some f
      ∧ (w.object o).schema.hasField name = true := by
    intro name f
    rw [OrderedMap.get?_eq_some_iff]
    exact List.mem_filter
  have hheld : ∀ {name}, name ∈ entries.map Prod.fst ↔
      (w.object o).schema.hasField name = true
        ∧ ((w.object other).fields.get? name).isSome = true := by
    intro name
    rw [Option.isSome_iff_exists]
    simp [hentry, and_comm]
  have hnodup : (entries.map Prod.fst).Nodup :=
    (List.filter_sublist.map Prod.fst).nodup (w.object other).fields.nodup_keys
  have hname : ∀ e ∈ entries, e.1 ≠ "id" := by
    rintro ⟨name, f⟩ he rfl
    exact Option.some_ne_none _ ((hentry.mp he).1.symm.trans hother.id)
  have hrun : o.copy other w = entries.forM (fun e => o.setUnchecked e.1 e.2) w := by
    rw [copy, bind_of_ok (get_apply w)]
  have hreplaces := forM_setUnchecked_replaces ho hname fun e he => (hentry.mp he).2
  rw [← hrun] at hreplaces
  refine ⟨_, hreplaces, Object.type_foldl_write .., fun name f => ?_⟩
  rw [Object.get?_foldl_write (fun e he => (hother.held e.1 e.2 (hentry.mp he).1).1) hnodup, hheld,
    hentry]
  split
  · rename_i hboth
    simp [hboth]
  · rename_i hnot
    refine ⟨?_, fun hf => Or.inr ⟨hnot, hf⟩⟩
    rintro (⟨hf, hhas⟩ | ⟨-, hf⟩)
    · exact absurd ⟨hhas, by rw [hf]; rfl⟩ hnot
    · exact hf

end ObjectId

/-! ### Runs -/

/-- A world with the objects that were made in a run. -/
structure Workshop where
  world : World
  made : List ObjectId

/-- A call on the objects that were made, or any change of the world around them. -/
inductive FieldCall
  | make (type : ClassType) (id : String)
  | set (o : ObjectId) (name : String) (f : Field)
  | get (o : ObjectId) (name : String)
  | rename (o : ObjectId) (id : String)
  | copy (o other : ObjectId)
  | around (w : World)

namespace Workshop

/-- The objects that were made keep to their classes, whatever the values they hold. -/
def Kept (s : Workshop) : Prop :=
  ∀ x ∈ s.made, x.index < s.world.objects.size ∧ (s.world.object x).Kept s.world.objects.size

/-- All that the made objects hold is valid. -/
def AllValid (s : Workshop) : Prop :=
  ∀ x ∈ s.made, ∀ name f, (s.world.object x).fields.get? name = some f →
    s.world.Valid (s.world.object x) name f

/-- What comes of a call, whether it succeeds or fails. -/
def next (s : Workshop) : FieldCall → Workshop
  | .make type id =>
    { world := (Action.newObject type id s.world).2, made := ⟨s.world.objects.size⟩ :: s.made }
  | .set o name f => { s with world := (o.set name f s.world).2 }
  | .get o name => { s with world := (o.get name s.world).2 }
  | .rename o id => { s with world := (o.rename id s.world).2 }
  | .copy o other => { s with world := (o.copy other s.world).2 }
  | .around w => { s with world := w }

/-- A call is made with types of loaded classes, on objects that were made in the run, and points to
objects that exist; what happens around the objects leaves them alone. -/
def Possible (s : Workshop) : FieldCall → Prop
  | .make type _ => type.schema.Loaded
  | .set o _ f => o ∈ s.made ∧ ∀ t ∈ f.targets, t.index < s.world.objects.size
  | .get o _ | .rename o _ => o ∈ s.made
  | .copy o other => o ∈ s.made ∧ other ∈ s.made
  | .around w => s.world.Widens w ∧ ∀ x ∈ s.made, w.object x = s.world.object x

/-- A reading that makes an object keep a reference to a class finds the class known. -/
def InitialKnown (s : Workshop) : FieldCall → Prop
  | .get o name => name ≠ "id" → (s.world.object o).fields.get? name = none →
    (s.world.object o).InitialKnown s.world name
  | _ => True

/-- A copy takes over only what is valid for the class that takes it. -/
def TakesValid (s : Workshop) : FieldCall → Prop
  | .copy o other => ∀ name f, (s.world.object other).fields.get? name = some f →
    (s.world.object o).schema.hasField name = true → s.world.Valid (s.world.object o) name f
  | _ => True

/-- A copy goes between objects of one registry whose classes declare their common fields alike. -/
def TakesAlike (s : Workshop) : FieldCall → Prop
  | .copy o other => (s.world.object o).type.home = (s.world.object other).type.home
    ∧ ∀ name, (s.world.object o).schema.hasField name = true →
      (s.world.object other).schema.hasField name = true →
      (s.world.object o).schema.attribute? name = (s.world.object other).schema.attribute? name
      ∧ (s.world.object o).schema.relation? name = (s.world.object other).schema.relation? name
  | _ => True

/-- Something holds of every call of a run, in the state in which the call is made. -/
def All (P : Workshop → FieldCall → Prop) : Workshop → List FieldCall → Prop
  | _, [] => True
  | s, call :: calls => P s call ∧ All P (s.next call) calls

/-- What comes of a run of calls. -/
def run (s : Workshop) (calls : List FieldCall) : Workshop := calls.foldl next s

variable {s : Workshop} {w : World} {o : ObjectId} {p : Object} {call : FieldCall}
  {calls : List FieldCall}

theorem Kept.widen (hs : s.Kept) (hw : s.world.Widens w)
    (hsame : ∀ x ∈ s.made, w.object x = s.world.object x) : Kept { s with world := w } := by
  intro x hx
  obtain ⟨hmade, hkept⟩ := hs x hx
  refine ⟨Nat.lt_of_lt_of_le hmade hw.objects, ?_⟩
  rw [hsame x hx]
  exact hkept.mono hw.objects

theorem AllValid.widen (hv : s.AllValid) (hs : s.Kept) (hw : s.world.Widens w)
    (hsame : ∀ x ∈ s.made, w.object x = s.world.object x) : AllValid { s with world := w } := by
  intro x hx name f hf
  rw [hsame x hx] at hf ⊢
  obtain ⟨-, hkept⟩ := hs x hx
  exact (hv x hx name f hf).widen hkept.loaded hw rfl (hkept.held name f hf).2.2

theorem Kept.replace (hs : s.Kept) (h : s.world.Replaces w o p)
    (hp : p.Kept s.world.objects.size) : Kept { s with world := w } := by
  intro x hx
  obtain ⟨hmade, hkept⟩ := hs x hx
  refine ⟨h.size.symm ▸ hmade, ?_⟩
  rw [h.size, h.object]
  split
  · exact hp
  · exact hkept

/-- Where one object is replaced, validity is a matter of what the new one holds. -/
theorem AllValid.replace_iff (hv : s.AllValid) (hs : s.Kept) (h : s.world.Replaces w o p)
    (ho : o ∈ s.made) (hp : p.Kept s.world.objects.size) (htype : p.type = (s.world.object o).type) :
    AllValid { s with world := w } ↔ ∀ name f, p.fields.get? name = some f →
      s.world.Valid (s.world.object o) name f := by
  have hloaded : (s.world.object o).schema.Loaded := (hs o ho).2.loaded
  have hback : w.Widens s.world :=
    ⟨Nat.le_of_eq h.size, fun x hx => (h.widens.types x (h.size ▸ hx)).symm,
      fun r c hc => (h.known r c).symm.trans hc⟩
  constructor
  · intro hall name f hf
    have hvalid := hall o ho name f (by rw [h.self]; exact hf)
    refine hvalid.widen ?_ hback (by rw [h.self]; exact htype.symm) ?_
    · rw [h.self]
      exact hp.loaded
    · rw [h.size]
      exact (hp.held name f hf).2.2
  · intro hall x hx name f hf
    rw [h.object] at hf ⊢
    split at hf
    · rename_i hxo
      rw [if_pos hxo]
      exact (hall name f hf).widen hloaded h.widens htype (hp.held name f hf).2.2
    · rename_i hxo
      rw [if_neg hxo]
      exact (hv x hx name f hf).widen (hs x hx).2.loaded h.widens rfl ((hs x hx).2.held name f hf).2.2

/-- A new object holds nothing. -/
theorem object_make {type : ClassType} {id : String} (x : ObjectId) :
    (s.next (.make type id)).world.object x
      = if x.index = s.world.objects.size then { type, id } else s.world.object x :=
  Arena.read_push ..

theorem widens_make {type : ClassType} {id : String} :
    s.world.Widens (s.next (.make type id)).world where
  objects := by
    change s.world.objects.size ≤ (s.world.objects.push { type, id }).size
    rw [Arena.size_push]
    exact Nat.le_succ _
  types x hx := by rw [object_make, if_neg (Nat.ne_of_lt hx)]
  known _ _ h := h

/-- A single change of an object keeps all objects to their classes, and valid under its condition. -/
theorem Kept.change {condition : Prop} (hs : s.Kept) (ho : o ∈ s.made)
    (h : s.world.Replaces w o p ∧ (s.world.object o).Becomes s.world condition p) :
    Kept { s with world := w } ∧ (s.AllValid → condition → AllValid { s with world := w }) := by
  obtain ⟨hreplaces, hbecomes⟩ := h
  have hp := hbecomes.kept (hs o ho).2
  exact ⟨hs.replace hreplaces hp, fun hv hcondition =>
    (hv.replace_iff hs hreplaces ho hp hbecomes.type_eq).mpr (hbecomes.valid hcondition (hv o ho))⟩

theorem Kept.make {type : ClassType} (hs : s.Kept) (hloaded : type.schema.Loaded) (id : String) :
    (s.next (.make type id)).Kept ∧ (s.AllValid → (s.next (.make type id)).AllValid) := by
  have hsame : ∀ x ∈ s.made, (s.next (.make type id)).world.object x = s.world.object x := fun x hx =>
    by rw [object_make, if_neg (Nat.ne_of_lt (hs x hx).1)]
  have hnew : (s.next (.make type id)).world.object ⟨s.world.objects.size⟩ = { type, id } := by
    rw [object_make, if_pos rfl]
  constructor
  · intro x hx
    rcases List.mem_cons.mp hx with rfl | hx
    · rw [hnew]
      refine ⟨?_, Object.kept_new hloaded id⟩
      change s.world.objects.size < (s.world.objects.push { type, id }).size
      rw [Arena.size_push]
      exact Nat.lt_succ_self _
    · exact hs.widen widens_make hsame x hx
  · intro hv x hx name f hf
    rcases List.mem_cons.mp hx with rfl | hx
    · rw [hnew] at hf
      simp at hf
    · exact hv.widen hs widens_make hsame x hx name f hf

theorem Kept.copy {other : ObjectId} (hs : s.Kept) (ho : o ∈ s.made) (hother : other ∈ s.made) :
    (s.next (.copy o other)).Kept
      ∧ (s.AllValid → ((s.next (.copy o other)).AllValid ↔ s.TakesValid (.copy o other))) := by
  obtain ⟨p, hreplaces, htype, hfields⟩ := o.copy_replaces (hs o ho).1 (hs other hother).2
  have hschema : p.schema = (s.world.object o).schema := congrArg ClassType.schema htype
  have hp : p.Kept s.world.objects.size := by
    refine ⟨hschema ▸ (hs o ho).2.loaded, ?_, fun name f hf => ?_⟩
    · cases hid : p.fields.get? "id" with
      | none => rfl
      | some f =>
        have hheld := (hfields "id" f).mp hid
        rw [(hs other hother).2.id, (hs o ho).2.id] at hheld
        simp at hheld
    · rw [hschema]
      have hheld := (hfields name f).mp hf
      split at hheld
      · rename_i hboth
        obtain ⟨hset, -, hmade⟩ := (hs other hother).2.held name f hheld
        exact ⟨hset, hboth.1, hmade⟩
      · exact (hs o ho).2.held name f hheld
  refine ⟨hs.replace hreplaces hp, fun hv => ?_⟩
  refine (hv.replace_iff hs hreplaces ho hp htype).trans
    ⟨fun hall name f hf hhas => ?_, fun htakes name f hf => ?_⟩
  · refine hall name f ((hfields name f).mpr ?_)
    rw [if_pos ⟨hhas, by rw [hf]; rfl⟩]
    exact hf
  · have hheld := (hfields name f).mp hf
    split at hheld
    · rename_i hboth
      exact htakes name f hheld hboth.1
    · exact hv o ho name f hheld

/-- What a call does to validity. -/
theorem Kept.next (hs : s.Kept) (hpossible : s.Possible call) :
    (s.next call).Kept ∧ (s.AllValid → s.InitialKnown call →
      ((s.next call).AllValid ↔ s.TakesValid call)) := by
  have htrivial : ∀ {P Q : Prop}, (s.AllValid → P → Q) → s.AllValid → P → (Q ↔ True) :=
    fun h hv hp => ⟨fun _ => trivial, fun _ => h hv hp⟩
  cases call with
  | make type id =>
    obtain ⟨hkept, hvalid⟩ := hs.make hpossible id
    exact ⟨hkept, htrivial fun hv _ => hvalid hv⟩
  | set o name f =>
    obtain ⟨ho, hmade⟩ := hpossible
    obtain ⟨p, hchange⟩ := o.set_becomes name (hs o ho).1 (hs o ho).2.loaded hmade
    obtain ⟨hkept, hvalid⟩ := hs.change ho hchange
    exact ⟨hkept, htrivial hvalid⟩
  | get o name =>
    obtain ⟨p, hchange⟩ := o.get_becomes (hs o hpossible).1 (hs o hpossible).2.loaded name
    obtain ⟨hkept, hvalid⟩ := hs.change hpossible hchange
    exact ⟨hkept, htrivial hvalid⟩
  | rename o id =>
    obtain ⟨p, hchange⟩ := o.rename_becomes (hs o hpossible).1 id
    obtain ⟨hkept, hvalid⟩ := hs.change hpossible hchange
    exact ⟨hkept, htrivial hvalid⟩
  | copy o other =>
    obtain ⟨hkept, hvalid⟩ := hs.copy hpossible.1 hpossible.2
    exact ⟨hkept, fun hv _ => hvalid hv⟩
  | around w =>
    obtain ⟨hw, hsame⟩ := hpossible
    exact ⟨hs.widen hw hsame, htrivial fun hv _ => hv.widen hs hw hsame⟩

/-- A copy between objects whose classes declare their common fields alike takes over what is valid. -/
theorem takesValid_of_alike (hs : s.Kept) (hv : s.AllValid) (hpossible : s.Possible call)
    (halike : s.TakesAlike call) : s.TakesValid call := by
  cases call with
  | copy o other =>
    intro name f hf hhas
    obtain ⟨hhome, hsame⟩ := halike
    obtain ⟨-, hother⟩ := hs other hpossible.2
    obtain ⟨hattribute, hrelation⟩ := hsame name hhas (hother.held name f hf).2.1
    exact (hv other hpossible.2 name f hf).transfer hother.loaded hhome hattribute hrelation
      (fun _ _ => rfl) fun _ _ h => h
  | _ => trivial

/-- All along a run what the made objects hold is valid if and only if each copy takes over only what
is valid. -/
theorem allValid_iff (hs : s.Kept) (hv : s.AllValid) (hpossible : All Possible s calls)
    (hknown : All InitialKnown s calls) :
    (∀ done, done <+: calls → (s.run done).AllValid) ↔ All TakesValid s calls := by
  induction calls generalizing s with
  | nil =>
    refine ⟨fun _ => trivial, fun _ done hdone => ?_⟩
    rw [List.prefix_nil.mp hdone]
    exact hv
  | cons call calls ih =>
    obtain ⟨hkept, hiff⟩ := hs.next hpossible.1
    have hiff := hiff hv hknown.1
    constructor
    · intro hall
      have hnext : (s.next call).AllValid := hall [call] ⟨calls, rfl⟩
      refine ⟨hiff.mp hnext, (ih hkept hnext hpossible.2 hknown.2).mp fun done hdone => ?_⟩
      exact hall (call :: done) ((List.prefix_cons_inj call).mpr hdone)
    · rintro ⟨htakes, hrest⟩ done hdone
      have hnext := hiff.mpr htakes
      cases done with
      | nil => exact hv
      | cons first done =>
        obtain ⟨rfl, hrun⟩ := List.cons_prefix_cons.mp hdone
        exact (ih hkept hnext hpossible.2 hknown.2).mpr hrest done hrun

theorem all_takesValid_of_alike (hs : s.Kept) (hv : s.AllValid) (hpossible : All Possible s calls)
    (hknown : All InitialKnown s calls) (halike : All TakesAlike s calls) :
    All TakesValid s calls := by
  induction calls generalizing s with
  | nil => trivial
  | cons call calls ih =>
    obtain ⟨hkept, hiff⟩ := hs.next hpossible.1
    have htakes := takesValid_of_alike hs hv hpossible.1 halike.1
    exact ⟨htakes, ih hkept ((hiff hv hknown.1).mpr htakes) hpossible.2 hknown.2 halike.2⟩

end Workshop

open Workshop

/-- Objects that are made new and changed by checked writes, readings, renames and copies hold what is
valid for their classes all along a run, whatever happens around them, if and only if every copy takes
over only what is valid for the class that takes it; copies between objects of one registry whose
classes declare their common fields alike do. -/
theorem held_valid_iff (w : World) (calls : List FieldCall) (hpossible : All Possible ⟨w, []⟩ calls)
    (hknown : All InitialKnown ⟨w, []⟩ calls) :
    ((∀ done, done <+: calls → (run ⟨w, []⟩ done).AllValid) ↔ All TakesValid ⟨w, []⟩ calls)
      ∧ (All TakesAlike ⟨w, []⟩ calls → ∀ done, done <+: calls → (run ⟨w, []⟩ done).AllValid) := by
  have hs : Workshop.Kept ⟨w, []⟩ := fun _ hx => absurd hx List.not_mem_nil
  have hv : Workshop.AllValid ⟨w, []⟩ := fun _ hx => absurd hx List.not_mem_nil
  have hiff := allValid_iff hs hv hpossible hknown
  exact ⟨hiff, fun halike => hiff.mpr (all_takesValid_of_alike hs hv hpossible hknown halike)⟩

/-- Signs carry a text and may stand near others; stamps carry a small number. -/
def signs : Hierarchy := .ofDeclarations [
  { name := "Sign", attributes := [{ name := "mark", type := "string" }]
    relations := [{ name := "near", target := "Sign", multivalue := true }] },
  { name := "Stamp", attributes := [{ name := "mark", type := "u8" }] }]

def markOf (type : AttributeType) (range : Range) : Attribute :=
  { name := "mark", type, multivalue := false, notNull := false
    rangeSource := none, initialSource := none, description := "", binding := some { range } }

def signSchema : ClassSchema :=
  { name := "Sign"
    attributes := .insert .empty "mark" (markOf (.text .string) .unbounded)
    relations := .insert .empty "near" {
      name := "near", target := "Sign", multivalue := true, notNull := false, aggregation := false
      description := "" } }

def stampSchema : ClassSchema :=
  { name := "Stamp"
    attributes := .insert .empty "mark" (markOf (.integer .u8) (.integers [.interval 0 255])) }

theorem loaded_signSchema : signSchema.Loaded := ⟨signs, "Sign", rfl⟩

theorem loaded_stampSchema : stampSchema.Loaded := ⟨signs, "Stamp", rfl⟩

/-- The types of signs and of stamps. -/
def signType : ClassType := { schema := signSchema, bases := [], home := ⟨0⟩ }

def stampType : ClassType := { schema := stampSchema, bases := [], home := ⟨0⟩ }

/-- Two signs, the second of which takes over what the first one carries. -/
def signCalls : List FieldCall :=
  [.make signType "1", .make signType "2", .set ⟨0⟩ "mark" (.value (.text "north")),
    .set ⟨0⟩ "near" (.objects [⟨1⟩]), .copy ⟨1⟩ ⟨0⟩, .get ⟨1⟩ "mark"]

theorem held_valid_iff_signs :
    All Possible ⟨{}, []⟩ signCalls ∧ All InitialKnown ⟨{}, []⟩ signCalls
      ∧ All TakesAlike ⟨{}, []⟩ signCalls
      ∧ ((run ⟨{}, []⟩ signCalls).world.object ⟨1⟩).fields.get? "near" = some (.objects [⟨1⟩])
      ∧ (run ⟨{}, []⟩ signCalls).AllValid := by
  have hpossible : All Possible ⟨{}, []⟩ signCalls :=
    ⟨loaded_signSchema, loaded_signSchema, ⟨by decide +kernel, nofun⟩,
      ⟨by decide +kernel, by decide +kernel⟩, ⟨by decide +kernel, by decide +kernel⟩,
      List.mem_cons_self, trivial⟩
  have hknown : All InitialKnown ⟨{}, []⟩ signCalls :=
    ⟨trivial, trivial, trivial, trivial, trivial, fun _ h => absurd h (by decide +kernel), trivial⟩
  have halike : All TakesAlike ⟨{}, []⟩ signCalls :=
    ⟨trivial, trivial, trivial, trivial, ⟨rfl, fun _ _ _ => ⟨rfl, rfl⟩⟩, trivial, trivial⟩
  have hvalid := (held_valid_iff {} signCalls hpossible hknown).2 halike signCalls
    (List.prefix_refl _)
  exact ⟨hpossible, hknown, halike, rfl, hvalid⟩

/-- A stamp that takes over what a sign carries. -/
def stampCalls : List FieldCall :=
  [.make signType "1", .make stampType "2", .set ⟨0⟩ "mark" (.value (.text "north")), .copy ⟨1⟩ ⟨0⟩]

/-- A copy between objects of different classes may leave in a field what the class does not take. -/
theorem not_held_valid_of_copy :
    All Possible ⟨{}, []⟩ stampCalls ∧ All InitialKnown ⟨{}, []⟩ stampCalls
      ∧ ¬ (run ⟨{}, []⟩ stampCalls).AllValid := by
  have hpossible : All Possible ⟨{}, []⟩ stampCalls :=
    ⟨loaded_signSchema, loaded_stampSchema, ⟨by decide +kernel, nofun⟩,
      ⟨by decide +kernel, by decide +kernel⟩, trivial⟩
  refine ⟨hpossible, ⟨trivial, trivial, trivial, trivial, trivial⟩, fun hall => ?_⟩
  have hmark := hall ⟨1⟩ List.mem_cons_self "mark" (.value (.text "north")) rfl
  cases hmark with
  | float known float =>
    obtain rfl := Option.some.inj known
    cases float
  | value known double stable =>
    obtain rfl := Option.some.inj known
    cases stable
  | relation free => cases free

end RecordGraph
