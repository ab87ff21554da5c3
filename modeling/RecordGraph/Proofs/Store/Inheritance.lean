import RecordGraph.Proofs.Generations
import RecordGraph.Proofs.OrderedMap
import RecordGraph.Proofs.Store.Lineage

/-!
The order of a lineage, and which declaration of an inherited field counts.  The ancestors of a class
are found generation by generation, nearest first, and the lineage is what was found, backwards.  A class
can stand in it before one that it derives from: that one comes up early along a short way, and the
class late along a longer one.  So the lineage goes from the basic classes to those that derive from
them exactly if every class is met before each of its direct superclasses is.
-/

namespace RecordGraph

namespace Hierarchy

variable {h : Hierarchy} {c a b n : String} {d e : ClassDeclaration} {line : List ClassDeclaration}

/-- No class of a line derives from one that stands behind it. -/
def BaseFirst (h : Hierarchy) (line : List ClassDeclaration) : Prop :=
  line.Pairwise fun d e => h.isA d.name e.name = false

instance (h : Hierarchy) (line : List ClassDeclaration) : Decidable (h.BaseFirst line) :=
  inferInstanceAs (Decidable (line.Pairwise fun d e => h.isA d.name e.name = false))

/-- Classes are declared under their own names. -/
def WellNamed (h : Hierarchy) : Prop := ∀ n d, h.classes.get? n = some d → d.name = n

theorem wellNamed_ofDeclarations (ds : List ClassDeclaration) : (ofDeclarations ds).WellNamed :=
  fun _ _ hget => OrderedMap.of_get?_ofList (fun n (d : ClassDeclaration) => d.name = n) (by simp) hget

/-! ### Acyclic hierarchies -/

theorem Acyclic.not_leads_back (hacyclic : h.Acyclic) (hstep : h.superGraph.Step a b) :
    ¬ h.superGraph.Leads b a := by
  obtain ⟨d, hdeclared, hb⟩ := step_superGraph.mp hstep
  rw [← isA_iff_leads, hacyclic (a, d) (OrderedMap.get?_eq_some_iff.mp hdeclared) b hb]
  exact Bool.false_ne_true

theorem Acyclic.ne_of_step (hacyclic : h.Acyclic) (hstep : h.superGraph.Step a b) : b ≠ a :=
  fun heq => hacyclic.not_leads_back hstep (heq ▸ .refl b)

/-! ### The names of a lineage -/

theorem next_superGraph (hdeclared : h.classes.get? c = some d) :
    h.superGraph.next c = d.superclasses := by
  rw [NameGraph.next, superGraph, OrderedMap.get?_mapValues, hdeclared]
  rfl

theorem lineage_eq_ok :
    h.lineage c = .ok line ↔ ∃ own above, h.classes.get? c = some own
      ∧ (h.superGraph.reach (h.superGraph.next c)).mapM h.declaration = .ok above
      ∧ line = (own :: above).reverse := by
  unfold lineage ancestors
  cases hown : h.classes.get? c with
  | none => simp [declaration, hown, bind, Except.bind]
  | some own =>
    rw [declaration_eq_ok.mpr hown, next_superGraph hown]
    cases hfound : (h.superGraph.reach own.superclasses).mapM h.declaration <;>
      simp [hfound, bind, Except.bind, pure, Except.pure, eq_comm]

theorem mem_cons_reach_iff : n ∈ c :: h.superGraph.reach (h.superGraph.next c) ↔ h.isA c n = true := by
  rw [isA_iff_leads, NameGraph.leads_iff, List.mem_cons, NameGraph.mem_reach_iff]
  exact or_congr eq_comm Iff.rfl

/-- There is a lineage exactly if the class and everything that it derives from is declared. -/
theorem exists_lineage_iff :
    (∃ line, h.lineage c = .ok line) ↔ ∀ n, h.isA c n = true → n ∈ h.names := by
  have hnames : ∀ n, n ∈ h.names ↔ ∃ d, h.classes.get? n = some d := fun n =>
    OrderedMap.mem_keys_iff
  have hdeclared : ∀ n, (h.declaration n).isOk = true ↔ n ∈ h.names := by
    intro n
    rw [hnames, declaration]
    cases h.classes.get? n <;> simp [Except.isOk, Except.toBool]
  constructor
  · rintro ⟨line, hline⟩ n hn
    obtain ⟨own, above, hown, habove, -⟩ := lineage_eq_ok.mp hline
    rcases List.mem_cons.mp (mem_cons_reach_iff.mpr hn) with rfl | hn
    · exact (hnames n).mpr ⟨own, hown⟩
    · exact (hdeclared n).mp (Computation.mapM_isOk.mp (by rw [habove]; rfl) n hn)
  · intro hall
    obtain ⟨own, hown⟩ := (hnames c).mp (hall c (isA_refl h c))
    have hok : ((h.superGraph.reach (h.superGraph.next c)).mapM h.declaration).isOk = true :=
      Computation.mapM_isOk.mpr fun n hn =>
        (hdeclared n).mpr (hall n (mem_cons_reach_iff.mp (List.mem_cons_of_mem c hn)))
    cases habove : (h.superGraph.reach (h.superGraph.next c)).mapM h.declaration with
    | error e => simp [habove, Except.isOk, Except.toBool] at hok
    | ok above => exact ⟨_, lineage_eq_ok.mpr ⟨own, above, hown, habove, rfl⟩⟩

/-- Each declaration that was found carries the name that it was found under. -/
theorem names_of_mapM_declaration (hnamed : h.WellNamed) {names : List String}
    (hfound : names.mapM h.declaration = .ok line) : line.map ClassDeclaration.name = names := by
  rw [Computation.except_mapM_eq_ok] at hfound
  induction names generalizing line with
  | nil => simpa using hfound.symm
  | cons n names ih =>
    cases line with
    | nil => simp at hfound
    | cons d line =>
      obtain ⟨hd, hrest⟩ := List.cons.inj hfound
      rw [List.map_cons, hnamed n d (declaration_eq_ok.mp hd), ih hrest]

/-- A lineage lists the class and what the search finds above it, backwards. -/
theorem names_lineage (hnamed : h.WellNamed) (hline : h.lineage c = .ok line) :
    line.reverse.map ClassDeclaration.name = c :: h.superGraph.reach (h.superGraph.next c) := by
  obtain ⟨own, above, hown, habove, rfl⟩ := lineage_eq_ok.mp hline
  rw [List.reverse_reverse, List.map_cons, hnamed c own hown, names_of_mapM_declaration hnamed habove]

/-! ### The order of a lineage -/

/-- Where a list has every class that a class derives from, and each before its direct superclasses, it
has each before everything that the class derives from. -/
theorem sooner_of_leads {names : List String}
    (hsteps : ∀ a b, h.isA c a = true → h.superGraph.Step a b → Sooner names a b)
    (ha : h.isA c a = true) (hleads : h.superGraph.Leads a n) : n = a ∨ Sooner names a n := by
  induction hleads with
  | refl => exact .inl rfl
  | @tail b n hleads hstep ih =>
    have hb : h.isA c b = true := isA_trans ha (isA_iff_leads.mpr hleads)
    have hlast := hsteps b n hb hstep
    rcases ih with rfl | ih
    · exact .inr hlast
    · exact .inr (ih.trans hlast)

/-- A line goes from the basic classes to those that derive from them exactly if backwards each class
comes before its direct superclasses. -/
theorem baseFirst_iff_sooner (hacyclic : h.Acyclic)
    (hnodup : (line.reverse.map ClassDeclaration.name).Nodup)
    (hmem : ∀ n, n ∈ line.reverse.map ClassDeclaration.name ↔ h.isA c n = true) :
    h.BaseFirst line ↔ ∀ a b, h.isA c a = true → h.superGraph.Step a b →
      Sooner (line.reverse.map ClassDeclaration.name) a b := by
  have hpairwise : h.BaseFirst line ↔ (line.reverse.map ClassDeclaration.name).Pairwise
      fun n m => h.isA m n = false := by
    rw [List.pairwise_map, List.pairwise_reverse]
    rfl
  rw [hpairwise, pairwise_iff_sooner hnodup]
  constructor
  · intro hordered a b ha hstep
    have hab : h.isA a b = true := isA_iff_leads.mpr (.tail (.refl a) hstep)
    have hb : h.isA c b = true := isA_trans ha hab
    have hne : a ≠ b := (hacyclic.ne_of_step hstep).symm
    rcases sooner_total ((hmem a).mpr ha) ((hmem b).mpr hb) hne with hsooner | hlater
    · exact hsooner
    · rw [hordered b a ((hmem a).mpr ha) hlater] at hab
      cases hab
  · intro hsteps n m hm hsooner
    rw [Bool.eq_false_iff]
    intro hmn
    rcases sooner_of_leads hsteps ((hmem m).mp hm) (isA_iff_leads.mp hmn) with rfl | hback
    · exact hsooner.asymm hsooner
    · exact hsooner.asymm hback

/-! ### Inherited fields -/

section Fields

variable {β : Type} {fields : ClassDeclaration → List β} {fieldName : β → String} {kept : List β} {k : β}

/-- Every kept field is one of a class none of whose ancestors in the line declares the name. -/
def KeepsBase (h : Hierarchy) (line : List ClassDeclaration) (fields : ClassDeclaration → List β)
    (fieldName : β → String) (kept : List β) : Prop :=
  ∀ k ∈ kept, ∃ d ∈ line, k ∈ fields d ∧ ∀ e ∈ line, e ≠ d → h.isA d.name e.name = true →
    ∀ f ∈ fields e, fieldName f ≠ fieldName k

instance [DecidableEq β] (h : Hierarchy) (line : List ClassDeclaration)
    (fields : ClassDeclaration → List β) (fieldName : β → String) (kept : List β) :
    Decidable (h.KeepsBase line fields fieldName kept) :=
  inferInstanceAs (Decidable (∀ k ∈ kept, ∃ d ∈ line, k ∈ fields d ∧ ∀ e ∈ line, e ≠ d →
    h.isA d.name e.name = true → ∀ f ∈ fields e, fieldName f ≠ fieldName k))

/-- Of the fields that a line declares under one name one is kept: that of the class which is met last
on the way up. -/
structure KeepsLast (h : Hierarchy) (c : String) (line : List ClassDeclaration)
    (fields : ClassDeclaration → List β) (fieldName : β → String) (kept : List β) : Prop where
  distinct : (kept.map fieldName).Nodup
  complete : ∀ d ∈ line, ∀ f ∈ fields d, ∃ k ∈ kept, fieldName k = fieldName f
  last : ∀ k ∈ kept, ∃ d ∈ line, k ∈ fields d ∧ ∀ e ∈ line, e ≠ d →
    (∃ f ∈ fields e, fieldName f = fieldName k) → h.superGraph.MetBefore c e.name d.name
  base : h.BaseFirst line → h.KeepsBase line fields fieldName kept

/-- A kept field is the first one of its name, and no class of the line before its own has one. -/
theorem exists_owner_of_mem_distinctBy
    (hk : k ∈ OrderedMap.distinctBy fieldName (line.flatMap fields)) :
    ∃ before d after, line = before ++ d :: after ∧ k ∈ fields d
      ∧ ∀ e ∈ before, ∀ f ∈ fields e, fieldName f ≠ fieldName k := by
  rw [OrderedMap.mem_distinctBy_iff, List.find?_flatMap, List.findSome?_eq_some_iff] at hk
  obtain ⟨before, d, after, rfl, hfirst, hbefore⟩ := hk
  refine ⟨before, d, after, rfl, List.mem_of_find?_eq_some hfirst, fun e he f hf heq => ?_⟩
  have hnone := List.find?_eq_none.mp (hbefore e he) f hf
  exact hnone (decide_eq_true heq)

/-- The fields that are kept of a line whose names, backwards, are in the order in which they are met. -/
theorem keepsLast_distinctBy (hnodup : (line.reverse.map ClassDeclaration.name).Nodup)
    (hmet : ∀ a b, Sooner (line.reverse.map ClassDeclaration.name) a b → h.superGraph.MetBefore c a b)
    (fields : ClassDeclaration → List β) (fieldName : β → String) :
    h.KeepsLast c line fields fieldName (OrderedMap.distinctBy fieldName (line.flatMap fields)) where
  distinct := OrderedMap.nodup_map_distinctBy fieldName _
  complete d hd f hf := OrderedMap.exists_mem_distinctBy fieldName (List.mem_flatMap.mpr ⟨d, hd, hf⟩)
  last k hk := by
    obtain ⟨before, d, after, rfl, hown, hbefore⟩ := exists_owner_of_mem_distinctBy hk
    refine ⟨d, by simp, hown, fun e he hne ⟨f, hf, hname⟩ => hmet _ _ ?_⟩
    have hafter : e ∈ after := by
      rcases List.mem_append.mp he with he | he
      · exact absurd hname (hbefore e he f hf)
      · exact (List.mem_cons.mp he).resolve_left hne
    -- backwards, the classes behind the owner come before it
    have hsplit : (before ++ d :: after).reverse.map ClassDeclaration.name
        = (after.reverse.map ClassDeclaration.name)
          ++ d.name :: before.reverse.map ClassDeclaration.name := by simp
    rw [hsplit] at hnodup ⊢
    have hd : d.name ∉ after.reverse.map ClassDeclaration.name := fun hmem =>
      (List.nodup_append.mp hnodup).2.2 _ hmem _ List.mem_cons_self rfl
    have hmem : e.name ∈ after.reverse.map ClassDeclaration.name :=
      List.mem_map_of_mem (List.mem_reverse.mpr hafter)
    obtain ⟨first, last, heq⟩ := List.append_of_mem hmem
    rw [heq] at hd ⊢
    refine ⟨first, last ++ d.name :: before.reverse.map ClassDeclaration.name, by simp,
      fun hfirst => hd (List.mem_append_left _ hfirst), fun heq => hd ?_⟩
    rw [heq]
    exact List.mem_append_right _ List.mem_cons_self
  base hfirst k hk := by
    obtain ⟨before, d, after, rfl, hown, hbefore⟩ := exists_owner_of_mem_distinctBy hk
    refine ⟨d, by simp, hown, fun e he hne hisA f hf => ?_⟩
    rcases List.mem_append.mp he with he | he
    · exact hbefore e he f hf
    · have hafter : e ∈ after := (List.mem_cons.mp he).resolve_left hne
      have hbehind := List.rel_of_pairwise_cons (List.pairwise_append.mp hfirst).2.1 hafter
      rw [hbehind] at hisA
      cases hisA

end Fields

end Hierarchy

namespace Store

/-- In an acyclic hierarchy a class has a lineage exactly if all that it derives from is visible.  The
lineage has the class and each of its ancestors once.  It goes from the basic classes to those that
derive from them exactly if, going up from the class generation by generation, every class is met before
each of its direct superclasses is.  Of the declarations of a field that of the class met last is kept,
which in a lineage of that order is one none of whose ancestors declares the field. -/
theorem lineage_baseFirst_iff (s : Store) (hacyclic : s.hierarchy.Acyclic) (c : String) :
    ((∃ line, s.hierarchy.lineage c = .ok line) ↔ ∀ n, s.hierarchy.isA c n = true → n ∈ s.classes)
      ∧ ∀ line, s.hierarchy.lineage c = .ok line →
        (line.map ClassDeclaration.name).Nodup
          ∧ (∀ n, n ∈ line.map ClassDeclaration.name ↔ s.hierarchy.isA c n = true)
          ∧ (s.hierarchy.BaseFirst line ↔ ∀ a b, s.hierarchy.isA c a = true →
            s.hierarchy.superGraph.Step a b → s.hierarchy.superGraph.MetBefore c a b)
          ∧ (∃ kept, s.hierarchy.attributes c true = .ok kept ∧ s.hierarchy.KeepsLast c line
            ClassDeclaration.attributes AttributeDeclaration.name kept)
          ∧ ∃ kept, s.hierarchy.relations c true = .ok kept ∧ s.hierarchy.KeepsLast c line
            ClassDeclaration.relations RelationDeclaration.name kept := by
  refine ⟨Hierarchy.exists_lineage_iff, fun line hline => ?_⟩
  have hnames := Hierarchy.names_lineage (Hierarchy.wellNamed_ofDeclarations _) hline
  have hback : ∀ b ∈ s.hierarchy.superGraph.next c, ¬ s.hierarchy.superGraph.Leads b c := fun _ hb =>
    hacyclic.not_leads_back hb
  have hmet : ∀ a b, Sooner (line.reverse.map ClassDeclaration.name) a b
      ↔ s.hierarchy.superGraph.MetBefore c a b := by
    intro a b
    rw [hnames]
    exact NameGraph.sooner_cons_reach_iff hback
  have hnodup : (line.reverse.map ClassDeclaration.name).Nodup := by
    rw [hnames, List.nodup_cons, NameGraph.mem_reach_iff]
    exact ⟨fun ⟨b, hb, hleads⟩ => hback b hb hleads, NameGraph.nodup_reach _ _⟩
  have hmem : ∀ n, n ∈ line.reverse.map ClassDeclaration.name ↔ s.hierarchy.isA c n = true := by
    intro n
    rw [hnames]
    exact Hierarchy.mem_cons_reach_iff
  refine ⟨?_, fun n => ?_, ?_, ⟨_, ?_, Hierarchy.keepsLast_distinctBy hnodup (fun a b => (hmet a b).mp) _ _⟩,
    _, ?_, Hierarchy.keepsLast_distinctBy hnodup (fun a b => (hmet a b).mp) _ _⟩
  · rwa [List.map_reverse, (List.reverse_perm _).nodup_iff] at hnodup
  · rw [← hmem, List.map_reverse, List.mem_reverse]
  · rw [Hierarchy.baseFirst_iff_sooner hacyclic hnodup hmem]
    simp only [hmet]
  · rw [Hierarchy.attributes, Hierarchy.scope, if_pos rfl, hline]
    rfl
  · rw [Hierarchy.relations, Hierarchy.scope, if_pos rfl, hline]
    rfl

/-- A class that declares one attribute. -/
def declaring (name type : String) (superclasses : List String) : ClassDeclaration :=
  { name, superclasses, attributes := [{ name := "x", type }] }

/-- A class that derives from another one and from the one which that derives from, in the given order.
Both of them declare one attribute, with different types. -/
def twiceDerived (superclasses : List String) : Store :=
  after [
    .addSchema "s" {
      classes := [declaring "A" "string" [], declaring "B" "u8" ["A"], { name := "C", superclasses }] },
    .createDatabase "d" ["s"]]

/-- With the nearer class named first, the lineage goes from the basic classes to those that derive from
them. -/
theorem lineage_baseFirst_iff_twiceDerived :
    (twiceDerived ["B", "A"]).hierarchy.Acyclic
      ∧ ∃ line, (twiceDerived ["B", "A"]).hierarchy.lineage "C" = .ok line
        ∧ (twiceDerived ["B", "A"]).hierarchy.BaseFirst line
        ∧ (∀ a b, (twiceDerived ["B", "A"]).hierarchy.isA "C" a = true →
          (twiceDerived ["B", "A"]).hierarchy.superGraph.Step a b →
          (twiceDerived ["B", "A"]).hierarchy.superGraph.MetBefore "C" a b)
        ∧ ∃ kept, (twiceDerived ["B", "A"]).hierarchy.attributes "C" true = .ok kept
          ∧ (twiceDerived ["B", "A"]).hierarchy.KeepsBase line ClassDeclaration.attributes
            AttributeDeclaration.name kept := by
  have hacyclic : (twiceDerived ["B", "A"]).hierarchy.Acyclic := by decide +kernel
  have hline : (twiceDerived ["B", "A"]).hierarchy.lineage "C"
      = .ok [declaring "A" "string" [], declaring "B" "u8" ["A"],
        { name := "C", superclasses := ["B", "A"] }] := rfl
  have hbase : (twiceDerived ["B", "A"]).hierarchy.BaseFirst
      [declaring "A" "string" [], declaring "B" "u8" ["A"],
        { name := "C", superclasses := ["B", "A"] }] := by decide +kernel
  obtain ⟨-, -, hiff, ⟨kept, hkept, hkeeps⟩, -⟩ :=
    ((twiceDerived ["B", "A"]).lineage_baseFirst_iff hacyclic "C").2 _ hline
  exact ⟨hacyclic, _, hline, hbase, hiff.mp hbase, kept, hkept, hkeeps.base hbase⟩

/-- With the more basic class named first, the class that derives from it comes to stand before it in
the lineage, and its declaration of the attribute is kept. -/
theorem not_baseFirst_of_twiceDerived :
    (¬ ∀ (s : Store) (c : String) (line : List ClassDeclaration), s.Reachable → s.hierarchy.Acyclic →
        s.hierarchy.lineage c = .ok line → s.hierarchy.BaseFirst line)
      ∧ ¬ ∀ (s : Store) (c : String) (line : List ClassDeclaration) (kept : List AttributeDeclaration),
        s.Reachable → s.hierarchy.Acyclic → s.hierarchy.lineage c = .ok line →
        s.hierarchy.attributes c true = .ok kept →
        s.hierarchy.KeepsBase line ClassDeclaration.attributes AttributeDeclaration.name kept := by
  have hreachable : (twiceDerived ["A", "B"]).Reachable := reachableBy_after fun _ _ => trivial
  have hacyclic : (twiceDerived ["A", "B"]).hierarchy.Acyclic := by decide +kernel
  have hline : (twiceDerived ["A", "B"]).hierarchy.lineage "C"
      = .ok [declaring "B" "u8" ["A"], declaring "A" "string" [],
        { name := "C", superclasses := ["A", "B"] }] := rfl
  have hkept : (twiceDerived ["A", "B"]).hierarchy.attributes "C" true
      = .ok [{ name := "x", type := "u8" }] := rfl
  refine ⟨fun hclaim => ?_, fun hclaim => ?_⟩
  · exact absurd (hclaim _ _ _ hreachable hacyclic hline) (by decide +kernel)
  · exact absurd (hclaim _ _ _ _ hreachable hacyclic hline hkept) (by decide +kernel)

end Store

end RecordGraph
