import RecordGraph.Proofs.Session.Growth
import RecordGraph.Proofs.Session.Populating

/-!
What a cache covers.  Objects are made for records only where nothing is cached, and what comes to be
cached under a class and an id is cached under every name of the class, so that finding the objects of
some records succeeds with a fuller cache wherever it does with another one.
-/

namespace RecordGraph

open RecordGraph.Computation

/-! ### Classes and ids that are covered -/

/-- The classes and ids that are covered once an object of a type is cached under an id. -/
def covering (covered : RecordRef → Prop) (type : ClassType) (id : String) : RecordRef → Prop :=
  fun r => covered r ∨ r.className ∈ type.names ∧ r.id = id

/-- Finding the objects of records one after the other.  Nothing is made for a covered record; for
another one, of a class with a type, an object is made, which covers more. -/
inductive Fills (types : OrderedMap String ClassType) (made : RecordRef → Prop) :
    (RecordRef → Prop) → List RecordRef → (RecordRef → Prop) → Prop
  | nil {K : RecordRef → Prop} : Fills types made K [] K
  | covered {K L : RecordRef → Prop} {r : RecordRef} {rs : List RecordRef} (old : K r)
      (rest : Fills types made K rs L) : Fills types made K (r :: rs) L
  | make {K L : RecordRef → Prop} {r : RecordRef} {rs : List RecordRef} {type : ClassType}
      (new : ¬ K r) (known : types.get? r.className = some type) (hr : made r)
      (rest : Fills types made (covering K type r.id) rs L) : Fills types made K (r :: rs) L

/-- More is covered, and whatever is covered anew is covered under all names of its class. -/
structure Wider (types : OrderedMap String ClassType) (K L : RecordRef → Prop) : Prop where
  subset : ∀ r, K r → L r
  closed : ∀ r type, types.get? r.className = some type → L r → ¬ K r →
    ∀ n ∈ type.names, L ⟨n, r.id⟩

variable {types : OrderedMap String ClassType} {made other : RecordRef → Prop}
  {K L M : RecordRef → Prop} {r : RecordRef} {rs rs' : List RecordRef} {type : ClassType}

namespace Fills

theorem append (h : Fills types made K rs L) (h' : Fills types made L rs' M) :
    Fills types made K (rs ++ rs') M := by
  induction h with
  | nil => exact h'
  | covered old _ ih => exact .covered old (ih h')
  | make new known hr _ ih => exact .make new known hr (ih h')

theorem split (h : Fills types made K (rs ++ rs') M) :
    ∃ L, Fills types made K rs L ∧ Fills types made L rs' M := by
  induction rs generalizing K with
  | nil => exact ⟨K, .nil, h⟩
  | cons r rs ih =>
    cases h with
    | covered old rest =>
      obtain ⟨L, hfirst, hrest⟩ := ih rest
      exact ⟨L, .covered old hfirst, hrest⟩
    | make new known hr rest =>
      obtain ⟨L, hfirst, hrest⟩ := ih rest
      exact ⟨L, .make new known hr hfirst, hrest⟩

theorem imp (h : Fills types made K rs L) (himp : ∀ r, made r → other r) :
    Fills types other K rs L := by
  induction h with
  | nil => exact .nil
  | covered old _ ih => exact .covered old ih
  | make new known hr _ ih => exact .make new known (himp _ hr) ih

end Fills

namespace Wider

/-- What covers a record already covers all that an object for it would. -/
theorem absorb (h : Wider types K L) (hknown : types.get? r.className = some type) (hnew : ¬ K r)
    (hr : L r) : Wider types (covering K type r.id) L where
  subset q hq := by
    rcases hq with hq | ⟨hclass, hid⟩
    · exact h.subset q hq
    · have hcovered := h.closed r type hknown hr hnew q.className hclass
      rwa [← hid] at hcovered
  closed q u hu hq hnot := h.closed q u hu hq fun hold => hnot (Or.inl hold)

theorem covering (h : Wider types K L) (type : ClassType) (id : String) :
    Wider types (covering K type id) (covering L type id) where
  subset q hq := hq.imp_left (h.subset q)
  closed q u hu hq hnot n hn := by
    rcases hq with hq | hq
    · exact Or.inl (h.closed q u hu hq (fun hold => hnot (Or.inl hold)) n hn)
    · exact absurd (Or.inr hq) hnot

end Wider

/-- Finding objects succeeds where more is covered. -/
theorem Fills.mono (h : Fills types made K rs K') (hwider : Wider types K L) :
    ∃ L', Fills types made L rs L' ∧ Wider types K' L' := by
  induction h generalizing L with
  | nil => exact ⟨L, .nil, hwider⟩
  | covered old _ ih =>
    obtain ⟨L', hfills, hend⟩ := ih hwider
    exact ⟨L', .covered (hwider.subset _ old) hfills, hend⟩
  | @make K _ r rs type new known hr _ ih =>
    by_cases hcovered : L r
    · obtain ⟨L', hfills, hend⟩ := ih (hwider.absorb known new hcovered)
      exact ⟨L', .covered hcovered hfills, hend⟩
    · obtain ⟨L', hfills, hend⟩ := ih (hwider.covering type r.id)
      exact ⟨L', .make hcovered known hr hfills, hend⟩

namespace Workspace

variable {base s t : Workspace}

/-- Something is cached under the class and id of a record. -/
def covers (s : Workspace) (r : RecordRef) : Prop := (s.cached? r.className r.id).isSome = true

theorem covers_make (s : Workspace) (type : ClassType) (id : String) :
    (s.make type id).covers = covering s.covers type id := by
  funext r
  unfold covers covering
  rw [cached?_make]
  split
  · rename_i hnew
    simp [hnew]
  · rename_i hold
    simp [hold]

/-- The attributes of a record can be read, and its class has the relations under their names. -/
structure Legible (base : Workspace) (r : RecordRef) (schema : ClassSchema) : Prop where
  known : base.registry.schema r.className = .ok schema
  attributes : ∀ name ∈ schema.attributes.keys, ∃ a v, schema.attribute? name = some a
    ∧ base.world.store.read r name a.getter = .ok v
  relations : ∀ relation ∈ schema.relations.values,
    (schema.relation? relation.name).isSome = true

/-- The records that a relation of a record leads to, if the class has it under its name. -/
def leadsBy (base : Workspace) (r : RecordRef) (schema : ClassSchema) (relation : Relation) :
    List RecordRef :=
  ((schema.relation? relation.name).map (base.resolve r)).getD []

/-- The records that the relations of a record lead to. -/
def leads (base : Workspace) (r : RecordRef) (schema : ClassSchema) : List RecordRef :=
  schema.relations.values.flatMap (base.leadsBy r schema)

end Workspace

end RecordGraph
