import RecordGraph.Proofs.Registry.Learning

/-!
What a derivation comes to.  The loop goes through the waiting classes in some order and puts the
blocked ones back; whatever the order, it ends with the least set of types that is closed under the
listed classes, and what it leaves over is blocked then.
-/

namespace RecordGraph

open RecordGraph.Computation

namespace Registry

/-- Schemas stand under the names of their classes. -/
def NamesSchemas (r : Registry) : Prop := ∀ c s, r.schemas.get? c = some s → s.name = c

/-- The least set of listed classes all of whose direct superclasses have a type or are in it. -/
inductive Derivable (r : Registry) (names : List String) : String → Prop
  | intro {c : String} {s : ClassSchema} (listed : c ∈ names) (schema : r.schemas.get? c = some s)
      (bases : ∀ b ∈ s.superclasses, r.types.contains b = false → Derivable r names b) :
      Derivable r names c

/-- A class that waits in vain. -/
def Blocked (r : Registry) (s : ClassSchema) : Prop :=
  r.types.contains s.name = false ∧ ∃ b ∈ s.superclasses, r.types.contains b = false

variable {r r' r'' : Registry} {home : RegistryId} {names names' : List String}

theorem Derivable.mono (hsub : names ⊆ names') {c : String} (h : r.Derivable names c) :
    r.Derivable names' c := by
  induction h with
  | intro listed schema _ ih => exact .intro (hsub listed) schema ih

theorem mapM_get?_eq_none :
    names.mapM r.types.get? = none ↔ ∃ b ∈ names, r.types.contains b = false := by
  induction names with
  | nil => simp
  | cons b names ih =>
    rw [List.mapM_cons]
    simp only [List.mem_cons, exists_eq_or_imp]
    rw [← ih, ← OrderedMap.get?_isSome]
    cases r.types.get? b <;> cases names.mapM r.types.get? <;> simp

theorem derived?_eq_none {s : ClassSchema} :
    r.derived? home s = none ↔ ∃ b ∈ s.superclasses, r.types.contains b = false := by
  rw [← mapM_get?_eq_none, derived?]
  cases s.superclasses.mapM r.types.get? <;> simp

/-- Bases that were found are found where no type is lost. -/
theorem KeepsTypes.bases (h : r.KeepsTypes r') {bases : List ClassType}
    (hbases : names.mapM r.types.get? = some bases) : names.mapM r'.types.get? = some bases := by
  rw [option_mapM_eq_some] at hbases ⊢
  rw [← hbases]
  refine List.map_congr_left fun b hb => ?_
  have hmem : r.types.get? b ∈ bases.map some := hbases ▸ List.mem_map_of_mem hb
  obtain ⟨t, -, ht⟩ := List.mem_map.mp hmem
  rw [← ht]
  exact h.types b t ht.symm

theorem contains_insertType {t : ClassType} {c : String} :
    (r.insertType t).types.contains c = (decide (c = t.name) || r.types.contains c) :=
  OrderedMap.contains_insert ..

theorem KeepsTypes.contains (h : r.KeepsTypes r') {c : String}
    (hc : r.types.contains c = true) : r'.types.contains c = true := by
  obtain ⟨t, ht⟩ := OrderedMap.contains_iff_exists_get?.mp hc
  exact OrderedMap.contains_iff_exists_get?.mpr ⟨t, h.types c t ht⟩

/-! ### The loop -/

/-- Nothing that waits is lost, and nothing is left over but what waited. -/
theorem mem_deriveWaiting (r : Registry) (home : RegistryId) (waiting : List ClassSchema)
    (stalled : Nat) (s : ClassSchema) :
    (s ∈ waiting → (r.deriveWaiting home waiting stalled).1.types.contains s.name = true
        ∨ s ∈ (r.deriveWaiting home waiting stalled).2)
      ∧ (s ∈ (r.deriveWaiting home waiting stalled).2 → s ∈ waiting) := by
  fun_induction deriveWaiting home r waiting stalled with
  | case1 r stalled => simp
  | case2 r u waiting stalled hdone ih =>
    refine ⟨fun hs => ?_, fun hs => List.mem_cons_of_mem u (ih.2 hs)⟩
    rcases List.mem_cons.mp hs with rfl | hs
    · exact Or.inl ((keepsTypes_deriveWaiting home r waiting 0).contains hdone)
    · exact ih.1 hs
  | case3 r u waiting stalled hnew t ht ih =>
    refine ⟨fun hs => ?_, fun hs => List.mem_cons_of_mem u (ih.2 hs)⟩
    rcases List.mem_cons.mp hs with rfl | hs
    · have hname : t.name = s.name := by rw [ClassType.name, (derived?_eq_some ht).1]
      have hmade : (r.insertType t).types.contains s.name = true := by
        simp [contains_insertType, hname]
      exact Or.inl ((keepsTypes_deriveWaiting home _ waiting 0).contains hmade)
    · exact ih.1 hs
  | case4 r u waiting stalled hnew hblocked hstall =>
    have hrotated : s ∈ waiting ++ [u] ↔ s ∈ u :: waiting := by simp [or_comm]
    exact ⟨fun hs => Or.inr (hrotated.mpr hs), hrotated.mp⟩
  | case5 r u waiting stalled hnew hblocked hstall ih =>
    have hrotated : s ∈ waiting ++ [u] ↔ s ∈ u :: waiting := by simp [or_comm]
    exact ⟨fun hs => ih.1 (hrotated.mpr hs), fun hs => hrotated.mp (ih.2 hs)⟩

/-- The classes put back since the last one that was done stand at the end of the queue, and all of
them are blocked, so that a full turn without progress leaves over blocked classes only. -/
theorem blocked_of_tried {waiting fresh tried : List ClassSchema} {stalled : Nat}
    (hsplit : waiting = fresh ++ tried) (hlength : tried.length = stalled)
    (htried : ∀ s ∈ tried, r.Blocked s) :
    ∀ s ∈ (r.deriveWaiting home waiting stalled).2,
      (r.deriveWaiting home waiting stalled).1.Blocked s := by
  fun_induction deriveWaiting home r waiting stalled generalizing fresh tried with
  | case1 r stalled => simp
  | case2 r u waiting stalled hdone ih => exact ih (List.append_nil _).symm rfl (by simp)
  | case3 r u waiting stalled hnew t ht ih => exact ih (List.append_nil _).symm rfl (by simp)
  | case4 r u waiting stalled hnew hblocked hstall =>
    have hu : r.Blocked u := ⟨Bool.eq_false_iff.mpr hnew, derived?_eq_none.mp hblocked⟩
    intro s hs
    cases fresh with
    | nil =>
      obtain rfl : u :: waiting = tried := hsplit
      exact htried s (by simpa [or_comm] using hs)
    | cons v fresh =>
      obtain ⟨rfl, rfl⟩ : u = v ∧ waiting = fresh ++ tried := List.cons.inj hsplit
      obtain rfl : fresh = [] := by
        rw [List.length_append, hlength] at hstall
        exact List.eq_nil_of_length_eq_zero (by omega)
      rcases List.mem_append.mp hs with hs | hs
      · exact htried s hs
      · exact List.mem_singleton.mp hs ▸ hu
  | case5 r u waiting stalled hnew hblocked hstall ih =>
    have hu : r.Blocked u := ⟨Bool.eq_false_iff.mpr hnew, derived?_eq_none.mp hblocked⟩
    cases fresh with
    | nil =>
      obtain rfl : u :: waiting = tried := hsplit
      simp at hlength
      omega
    | cons v fresh =>
      obtain ⟨rfl, rfl⟩ : u = v ∧ waiting = fresh ++ tried := List.cons.inj hsplit
      have hrotated : fresh ++ tried ++ [u] = fresh ++ (tried ++ [u]) := List.append_assoc ..
      refine ih hrotated (by simp [hlength]) fun s hs => ?_
      rcases List.mem_append.mp hs with hs | hs
      · exact htried s hs
      · exact List.mem_singleton.mp hs ▸ hu

theorem blocked_of_mem_deriveWaiting (r : Registry) (home : RegistryId) (waiting : List ClassSchema) :
    ∀ s ∈ (r.deriveWaiting home waiting 0).2, (r.deriveWaiting home waiting 0).1.Blocked s :=
  blocked_of_tried (List.append_nil waiting).symm rfl (by simp)

theorem schemas_deriveWaiting {waiting : List ClassSchema} {stalled : Nat} :
    (r.deriveWaiting home waiting stalled).1.schemas = r.schemas :=
  deriveWaiting_invariant (P := fun r' => r'.schemas = r.schemas) home waiting stalled rfl
    fun _ _ _ h _ _ _ => h

/-- Every type that the loop makes has the types of its bases in the registry in which it ends. -/
theorem made_deriveWaiting {waiting : List ClassSchema} {stalled : Nat} {c : String} {t : ClassType}
    (ht : (r.deriveWaiting home waiting stalled).1.types.get? c = some t) :
    r.types.get? c = some t ∨ ∃ s ∈ waiting, s.name = c ∧ ∃ bases,
      s.superclasses.mapM (r.deriveWaiting home waiting stalled).1.types.get? = some bases
        ∧ t = { schema := s, bases, home } := by
  refine deriveWaiting_invariant (P := fun r' => ∀ c t, r'.types.get? c = some t →
    r.types.get? c = some t ∨ ∃ s ∈ waiting, s.name = c ∧ ∃ bases,
      s.superclasses.mapM r'.types.get? = some bases ∧ t = { schema := s, bases, home })
    home waiting stalled (fun c t ht => Or.inl ht) ?_ c t ht
  intro r₁ s u hmade hs hnew hu c t ht
  obtain ⟨hschema, hbases, hhome⟩ := derived?_eq_some hu
  have hname : u.name = s.name := by rw [ClassType.name, hschema]
  have hkeeps := keepsTypes_insertType hnew hu
  rw [insertType, OrderedMap.get?_insert] at ht
  split at ht
  · rename_i hc
    cases ht
    refine Or.inr ⟨s, hs, hname.symm.trans hc.symm, u.bases, hkeeps.bases hbases, ?_⟩
    cases u
    cases hschema
    cases hhome
    rfl
  · refine (hmade c t ht).imp_right ?_
    rintro ⟨v, hv, hvname, bases, hvbases, rfl⟩
    exact ⟨v, hv, hvname, bases, hkeeps.bases hvbases, rfl⟩

/-! ### Derivations -/

/-- What deriving the types of listed classes comes to, whatever the order. -/
structure Derives (home : RegistryId) (r : Registry) (names : List String) (r' : Registry) :
    Prop where
  kept : r.KeepsTypes r'
  schemas : r'.schemas = r.schemas
  typed : ∀ c, r'.types.contains c = true ↔ r.types.contains c = true ∨ r.Derivable names c
  made : ∀ c t, r'.types.get? c = some t → r.types.get? c = some t ∨ ∃ s bases,
    r.schemas.get? c = some s ∧ s.superclasses.mapM r'.types.get? = some bases
      ∧ t = { schema := s, bases, home }

/-- Each type is added when those of its bases are there. -/
theorem derivable_of_deriveWaiting (hr : r.NamesSchemas) {waiting : List ClassSchema}
    (hwaiting : ∀ s ∈ waiting, ∃ c ∈ names, r.schemas.get? c = some s) {c : String}
    (hc : (r.deriveWaiting home waiting 0).1.types.contains c = true) :
    r.types.contains c = true ∨ r.Derivable names c := by
  refine deriveWaiting_invariant (P := fun r' => ∀ c, r'.types.contains c = true →
    r.types.contains c = true ∨ r.Derivable names c) home waiting 0 (fun _ => Or.inl) ?_ c hc
  intro r₁ s t hsound hs hnew ht c hc
  have hname : t.name = s.name := by rw [ClassType.name, (derived?_eq_some ht).1]
  rw [contains_insertType, Bool.or_eq_true, decide_eq_true_eq] at hc
  rcases hc with rfl | hc
  · obtain ⟨c, hlisted, hschema⟩ := hwaiting s hs
    rw [hname, hr c s hschema]
    refine Or.inr (.intro hlisted hschema fun b hb hbnew => ?_)
    cases hbase : r₁.types.contains b with
    | true => exact (hsound b hbase).resolve_left (by simp [hbnew])
    | false => simp [derived?_eq_none.mpr ⟨b, hb, hbase⟩] at ht
  · exact hsound c hc

/-- No class whose bases have types is left over. -/
theorem deriveWaiting_of_derivable (hr : r.NamesSchemas) {waiting : List ClassSchema}
    (hwaiting : ∀ s, (∃ c ∈ names, r.schemas.get? c = some s) → s ∈ waiting) {c : String}
    (hc : r.Derivable names c) : (r.deriveWaiting home waiting 0).1.types.contains c = true := by
  induction hc with
  | @intro c s listed schema _ ih =>
    rw [← hr c s schema]
    refine ((mem_deriveWaiting r home waiting 0 s).1 (hwaiting s ⟨c, listed, schema⟩)).resolve_right
      fun hleft => ?_
    obtain ⟨-, b, hb, hmissing⟩ := blocked_of_mem_deriveWaiting r home waiting s hleft
    have hbase : (r.deriveWaiting home waiting 0).1.types.contains b = true := by
      cases hold : r.types.contains b with
      | true => exact (keepsTypes_deriveWaiting home r waiting 0).contains hold
      | false => exact ih b hb hold
    rw [hmissing] at hbase
    exact Bool.noConfusion hbase

theorem derives_deriveWaiting (home : RegistryId) (hr : r.NamesSchemas) {waiting : List ClassSchema}
    (hwaiting : ∀ s, s ∈ waiting ↔ ∃ c ∈ names, r.schemas.get? c = some s) :
    Derives home r names (r.deriveWaiting home waiting 0).1 where
  kept := keepsTypes_deriveWaiting home r waiting 0
  schemas := schemas_deriveWaiting
  typed c := by
    constructor
    · exact derivable_of_deriveWaiting hr fun s => (hwaiting s).mp
    · rintro (hc | hc)
      · exact (keepsTypes_deriveWaiting home r waiting 0).contains hc
      · exact deriveWaiting_of_derivable hr (fun s => (hwaiting s).mpr) hc
  made c t ht := by
    refine (made_deriveWaiting ht).imp_right ?_
    rintro ⟨s, hs, rfl, bases, hbases, rfl⟩
    obtain ⟨c, -, hschema⟩ := (hwaiting s).mp hs
    exact ⟨s, bases, hr c s hschema ▸ hschema, hbases, rfl⟩

/-- The types come out the same for every list of the same classes. -/
theorem Derives.get?_eq (h : Derives home r names r') (h' : Derives home r names' r'')
    (hsame : ∀ c, c ∈ names' ↔ c ∈ names) (c : String) :
    r''.types.get? c = r'.types.get? c := by
  have hold : ∀ c, r.types.contains c = true → r''.types.get? c = r'.types.get? c := by
    intro c hc
    obtain ⟨t, ht⟩ := OrderedMap.contains_iff_exists_get?.mp hc
    rw [h.kept.types c t ht, h'.kept.types c t ht]
  have hnew : r.Derivable names c → r''.types.get? c = r'.types.get? c := by
    intro hc
    induction hc with
    | @intro c s listed schema bases ih =>
      by_cases htyped : r.types.contains c = true
      · exact hold c htyped
      have hmade := Derivable.intro listed schema bases
      have hmade' : r.Derivable names' c := hmade.mono fun c hc => (hsame c).mpr hc
      obtain ⟨t, ht⟩ := OrderedMap.contains_iff_exists_get?.mp ((h.typed c).mpr (Or.inr hmade))
      obtain ⟨t', ht'⟩ := OrderedMap.contains_iff_exists_get?.mp ((h'.typed c).mpr (Or.inr hmade'))
      have hnone : r.types.get? c = none := by
        rwa [← OrderedMap.get?_isSome, Bool.not_eq_true, Option.isSome_eq_false_iff,
          Option.isNone_iff_eq_none] at htyped
      obtain ⟨s₁, bs, hs₁, hbases, rfl⟩ := (h.made c t ht).resolve_left (by simp [hnone])
      obtain ⟨s₂, bs', hs₂, hbases', rfl⟩ := (h'.made c t' ht').resolve_left (by simp [hnone])
      obtain rfl : s = s₁ := Option.some.inj (schema.symm.trans hs₁)
      obtain rfl : s = s₂ := Option.some.inj (schema.symm.trans hs₂)
      rw [option_mapM_eq_some] at hbases hbases'
      have hmap : bs'.map some = bs.map some := by
        rw [← hbases, ← hbases']
        refine List.map_congr_left fun b hb => ?_
        cases hb' : r.types.contains b with
        | true => exact hold b hb'
        | false => exact ih b hb hb'
      rw [ht, ht', (List.map_inj_right fun _ _ => Option.some.inj).mp hmap]
  by_cases hc : r.types.contains c = true ∨ r.Derivable names c
  · exact hc.elim (hold c) hnew
  · have hc' : ¬ (r.types.contains c = true ∨ r.Derivable names' c) := by
      rintro (hc' | hc')
      · exact hc (Or.inl hc')
      · exact hc (Or.inr (hc'.mono fun c hc => (hsame c).mp hc))
    rw [← h.typed, ← OrderedMap.get?_isSome, Option.not_isSome_iff_eq_none] at hc
    rw [← h'.typed, ← OrderedMap.get?_isSome, Option.not_isSome_iff_eq_none] at hc'
    rw [hc, hc']

/-- What a derivation answers that leaves some of the listed classes without a type. -/
def answer (r : Registry) (names blocked : List String) : Except Error (List ClassType) :=
  if blocked = [] then names.mapM r.type
  else .error (.invalidSchema ("cannot derive types for "
    ++ String.intercalate ", " blocked ++ ": superclasses are missing"))

theorem isOk_answer {blocked : List String}
    (hblocked : ∀ c, c ∈ blocked ↔ c ∈ names ∧ r.types.contains c = false) :
    (r.answer names blocked).isOk = true ↔ ∀ c ∈ names, r.types.contains c = true := by
  have htype : ∀ c, (r.type c).isOk = r.types.contains c := by
    intro c
    rw [type, ← OrderedMap.get?_isSome]
    cases r.types.get? c <;> rfl
  unfold answer
  split
  · rw [mapM_isOk]
    exact forall₂_congr fun c _ => by rw [htype]
  · rename_i hsome
    obtain ⟨c, hc⟩ := List.exists_mem_of_ne_nil blocked hsome
    obtain ⟨hlisted, hmissing⟩ := (hblocked c).mp hc
    refine ⟨fun h => Bool.noConfusion h, fun hall => ?_⟩
    rw [hall c hlisted] at hmissing
    exact Bool.noConfusion hmissing

theorem mem_of_mapM_schema {schemas : List ClassSchema} {s : ClassSchema}
    (hschemas : names.mapM r.schema = .ok schemas) :
    s ∈ schemas ↔ ∃ c ∈ names, r.schemas.get? c = some s := by
  obtain ⟨hfrom, hto⟩ := mapM_schema hschemas
  refine ⟨hfrom s, ?_⟩
  rintro ⟨c, hc, hs⟩
  obtain ⟨u, hu, hget⟩ := hto c hc
  exact Option.some.inj (hs.symm.trans hget) ▸ hu

/-- The classes that are left over are those of the waiting ones that got no type. -/
theorem mem_blocked_iff {home : RegistryId} {waiting rest : List ClassSchema} (hr : r.NamesSchemas)
    (hnames : ∀ c ∈ names, r.schemas.contains c = true)
    (hwaiting : ∀ s, s ∈ waiting ↔ ∃ c ∈ names, r.schemas.get? c = some s)
    (hloop : r.deriveWaiting home waiting 0 = (r', rest)) (c : String) :
    c ∈ rest.map ClassSchema.name ↔ c ∈ names ∧ r'.types.contains c = false := by
  rw [List.mem_map]
  constructor
  · rintro ⟨s, hs, rfl⟩
    have hblocked := blocked_of_mem_deriveWaiting r home waiting s
    have hmem := (mem_deriveWaiting r home waiting 0 s).2
    rw [hloop] at hblocked hmem
    obtain ⟨c, hc, hget⟩ := (hwaiting s).mp (hmem hs)
    exact ⟨hr c s hget ▸ hc, (hblocked hs).1⟩
  · rintro ⟨hc, hmissing⟩
    obtain ⟨s, hget⟩ := OrderedMap.contains_iff_exists_get?.mp (hnames c hc)
    obtain rfl := hr c s hget
    have hmem := (mem_deriveWaiting r home waiting 0 s).1 ((hwaiting s).mpr ⟨_, hc, hget⟩)
    rw [hloop] at hmem
    refine ⟨s, hmem.resolve_left fun hdone => ?_, rfl⟩
    rw [hmissing] at hdone
    exact Bool.noConfusion hdone

/-- A derivation gives back the types of the listed classes, or names those that got none. -/
theorem derive_run (home : RegistryId) (names : List String) (hr : r.NamesSchemas)
    (hnames : ∀ c ∈ names, r.schemas.contains c = true) :
    ∃ r' blocked, derive home names r = (r'.answer names blocked, r') ∧ Derives home r names r'
      ∧ ∀ c, c ∈ blocked ↔ c ∈ names ∧ r'.types.contains c = false := by
  have hok : (names.mapM r.schema).isOk = true := by
    refine mapM_isOk.mpr fun c hc => ?_
    obtain ⟨s, hs⟩ := OrderedMap.contains_iff_exists_get?.mp (hnames c hc)
    rw [schema_eq_ok.mpr hs]
    rfl
  cases hschemas : names.mapM r.schema with
  | error e => simp [hschemas, Except.isOk, Except.toBool] at hok
  | ok schemas =>
    let byAncestors := schemas.mergeSort fun s t => s.ancestors.length ≤ t.ancestors.length
    have hwaiting : ∀ s, s ∈ byAncestors ↔ ∃ c ∈ names, r.schemas.get? c = some s := fun s =>
      List.mem_mergeSort.trans (mem_of_mapM_schema hschemas)
    have hderives := derives_deriveWaiting home hr hwaiting
    cases hloop : r.deriveWaiting home byAncestors 0 with
    | mk r' rest =>
      rw [hloop] at hderives
      refine ⟨r', rest.map ClassSchema.name, ?_, hderives, mem_blocked_iff hr hnames hwaiting hloop⟩
      have hread : (MonadExcept.ofExcept (names.mapM r.schema) : RegistryM _) r
          = (.ok schemas, r) := by rw [ofExcept_apply, hschemas]
      rw [derive, bind_of_ok (get_apply r), bind_of_ok hread]
      simp only [byAncestors] at hloop
      rw [hloop]
      refine (bind_of_ok (set_apply r' r)).trans ?_
      cases rest with
      | nil => exact ofExcept_apply _ _
      | cons s rest => rfl

/-- Deriving the types of listed classes ends with the least set of types that is closed under them,
whether it succeeds or fails, and succeeds exactly when each of them has a type then.  No type is
replaced, and any other list of the same classes gives the same outcome and the same types. -/
theorem derive_leastFixpoint (home : RegistryId) (names : List String) (hr : r.NamesSchemas)
    (hnames : ∀ c ∈ names, r.schemas.contains c = true) :
    ∃ result r', derive home names r = (result, r')
      ∧ (∀ c, r'.types.contains c = true ↔ r.types.contains c = true ∨ r.Derivable names c)
      ∧ (result.isOk = true ↔ ∀ c ∈ names, r'.types.contains c = true)
      ∧ (∀ c t, r.types.get? c = some t → r'.types.get? c = some t)
      ∧ ∀ names', (∀ c, c ∈ names' ↔ c ∈ names) → ∃ result' r'',
          derive home names' r = (result', r'') ∧ result'.isOk = result.isOk
            ∧ ∀ c, r''.types.get? c = r'.types.get? c := by
  obtain ⟨r', blocked, hrun, hderives, hblocked⟩ := derive_run home names hr hnames
  refine ⟨_, r', hrun, hderives.typed, isOk_answer hblocked, hderives.kept.types, ?_⟩
  intro names' hsame
  obtain ⟨r'', blocked', hrun', hderives', hblocked'⟩ :=
    derive_run home names' hr fun c hc => hnames c ((hsame c).mp hc)
  have heq := hderives.get?_eq hderives' hsame
  refine ⟨_, r'', hrun', ?_, heq⟩
  rw [Bool.eq_iff_iff, isOk_answer hblocked, isOk_answer hblocked']
  simp only [← OrderedMap.get?_isSome, heq, hsame]

/-- Three classes, the last of which has a superclass that nothing is known of. -/
def orphaned : Registry :=
  { schemas := .ofList [
      ("A", { name := "A" }), ("B", { name := "B", superclasses := ["A"] }),
      ("C", { name := "C", superclasses := ["Z"] })] }

theorem namesSchemas_orphaned : orphaned.NamesSchemas := fun _ _ hs =>
  OrderedMap.of_get?_ofList (fun c s => s.name = c) (by simp) hs

theorem derivable_orphaned {names : List String} (hA : "A" ∈ names) (hB : "B" ∈ names) :
    orphaned.Derivable names "A" ∧ orphaned.Derivable names "B" := by
  have hbase : orphaned.Derivable names "A" := .intro hA (s := { name := "A" }) rfl (by simp)
  refine ⟨hbase, .intro hB (s := { name := "B", superclasses := ["A"] }) rfl fun b hb _ => ?_⟩
  exact List.mem_singleton.mp hb ▸ hbase

theorem not_derivable_orphaned {names : List String} (hZ : "Z" ∉ names) :
    ¬ orphaned.Derivable names "C" := by
  rintro ⟨listed, schema, bases⟩
  obtain rfl := Option.some.inj schema
  obtain ⟨hlisted, -, -⟩ := bases "Z" (by simp) rfl
  exact hZ hlisted

/-- Listed before its superclass and twice, the second class gets its type nevertheless; the third
one never does. -/
theorem derive_orphaned :
    ∃ e r', derive ⟨0⟩ ["B", "C", "A", "B"] orphaned = (.error e, r')
      ∧ r'.types.contains "A" = true ∧ r'.types.contains "B" = true
      ∧ r'.types.contains "C" = false
      ∧ ∃ e' r'', derive ⟨0⟩ ["A", "B", "C"] orphaned = (.error e', r'')
        ∧ ∀ c, r''.types.get? c = r'.types.get? c := by
  obtain ⟨result, r', hrun, htyped, hok, -, hsame⟩ := derive_leastFixpoint ⟨0⟩
    ["B", "C", "A", "B"] namesSchemas_orphaned (by decide)
  obtain ⟨hA, hB⟩ : orphaned.Derivable ["B", "C", "A", "B"] "A"
      ∧ orphaned.Derivable ["B", "C", "A", "B"] "B" :=
    derivable_orphaned (by simp) (by simp)
  have hC : r'.types.contains "C" = false := by
    refine Bool.eq_false_iff.mpr fun hC => ?_
    rcases (htyped "C").mp hC with hold | hderivable
    · exact absurd hold (by decide)
    · exact not_derivable_orphaned (by decide) hderivable
  have hfails : result.isOk = false := by
    refine Bool.eq_false_iff.mpr fun h => ?_
    rw [hok.mp h "C" (by simp)] at hC
    exact Bool.noConfusion hC
  obtain ⟨result', r'', hrun', houtcome, htypes⟩ := hsame ["A", "B", "C"] (fun c => by grind)
  cases result with
  | ok ts => exact Bool.noConfusion hfails
  | error e =>
    cases result' with
    | ok ts => exact Bool.noConfusion houtcome
    | error e' =>
      exact ⟨e, r', hrun, (htyped "A").mpr (Or.inr hA), (htyped "B").mpr (Or.inr hB), hC,
        e', r'', hrun', htypes⟩

end Registry

end RecordGraph
