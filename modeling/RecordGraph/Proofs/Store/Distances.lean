import Mathlib.Data.Nat.Find
import RecordGraph.Proofs.Store.Inheritance

/-!
How far names are from each other.  The search from given names comes to its end whatever cycles,
repetitions and unknown names there are, and finds what these names lead to.  It goes generation by
generation, and a name that is met in one generation was not met in an earlier one, so that of two
ancestors of a class the nearer one is found first.
-/

namespace RecordGraph

namespace NameGraph

variable {g : NameGraph} {a b c x y : String} {roots : List String} {m n : Nat}

/-- One name leads to another in so many steps. -/
inductive Walk (g : NameGraph) : Nat → String → String → Prop
  | refl (a : String) : Walk g 0 a a
  | head {n : Nat} {a b c : String} (step : g.Step a b) (rest : Walk g n b c) : Walk g (n + 1) a c

/-- The least number of steps, but at least one, in which a name leads to another.  A name on a cycle
is as far from itself as its shortest cycle is long. -/
structure Distance (g : NameGraph) (a b : String) (n : Nat) : Prop where
  positive : 0 < n
  walk : g.Walk n a b
  least : ∀ m, 0 < m → g.Walk m a b → n ≤ m

/-! ### Walks -/

theorem Walk.tail (h : g.Walk n a b) (step : g.Step b c) : g.Walk (n + 1) a c := by
  induction h with
  | refl => exact .head step (.refl c)
  | head first _ ih => exact .head first (ih step)

theorem walk_succ_iff : g.Walk (n + 1) a c ↔ ∃ b ∈ g.next a, g.Walk n b c := by
  constructor
  · intro h
    cases h with
    | head step rest => exact ⟨_, step, rest⟩
  · rintro ⟨b, step, rest⟩
    exact .head step rest

theorem leads_iff_walk : g.Leads a b ↔ ∃ n, g.Walk n a b := by
  constructor
  · intro h
    induction h with
    | refl => exact ⟨0, .refl a⟩
    | tail _ step ih =>
      obtain ⟨n, walk⟩ := ih
      exact ⟨n + 1, walk.tail step⟩
  · rintro ⟨n, walk⟩
    induction walk with
    | refl => exact .refl _
    | head step _ ih => exact .head step ih

/-- The search from what a name leads to directly finds what the name leads to in one or more steps. -/
theorem mem_reach_next_iff : b ∈ g.reach (g.next a) ↔ ∃ n, g.Walk (n + 1) a b := by
  rw [mem_reach_iff]
  constructor
  · rintro ⟨first, hfirst, hleads⟩
    obtain ⟨n, walk⟩ := leads_iff_walk.mp hleads
    exact ⟨n, .head hfirst walk⟩
  · rintro ⟨n, walk⟩
    obtain ⟨first, hfirst, rest⟩ := walk_succ_iff.mp walk
    exact ⟨first, hfirst, leads_iff_walk.mpr ⟨n, rest⟩⟩

theorem exists_distance (h : g.Walk (n + 1) a b) : ∃ m, g.Distance a b m := by
  classical
  have hsome : ∃ m, 0 < m ∧ g.Walk m a b := ⟨n + 1, Nat.succ_pos n, h⟩
  obtain ⟨hpositive, hwalk⟩ := Nat.find_spec hsome
  exact ⟨Nat.find hsome, hpositive, hwalk, fun m hm walk => Nat.find_min' hsome ⟨hm, walk⟩⟩

/-! ### The order of the search -/

/-- What the generations meet sooner than a name is not farther than that name. -/
theorem exists_walk_of_sooner (h : Sooner (generations g.next m roots) x y)
    (hy : ∃ root ∈ roots, g.Walk n root y) : ∃ k ≤ n, ∃ root ∈ roots, g.Walk k root x := by
  induction m generalizing roots n with
  | zero => cases h.mem
  | succ m ih =>
    rw [generations, sooner_append_iff] at h
    rcases h with h | ⟨hnew, h⟩
    · exact ⟨0, Nat.zero_le n, x, h.mem, .refl x⟩
    · obtain ⟨root, hroot, walk⟩ := hy
      cases walk with
      | refl => exact absurd hroot hnew
      | @head n _ first _ step rest =>
        obtain ⟨k, hk, first', hfirst', rest'⟩ :=
          ih h ⟨first, List.mem_flatMap.mpr ⟨root, hroot, step⟩, rest⟩
        obtain ⟨root', hroot', step'⟩ := List.mem_flatMap.mp hfirst'
        exact ⟨k + 1, Nat.succ_le_succ hk, root', hroot', .head step' rest'⟩

/-- The search from what a name leads to directly finds nearer names before names that are farther. -/
theorem pairwise_reach_next {distance : String → Nat}
    (hdistance : ∀ b ∈ g.reach (g.next c), g.Distance c b (distance b)) :
    (g.reach (g.next c)).Pairwise fun a b => distance a ≤ distance b := by
  rw [pairwise_iff_sooner (g.nodup_reach _)]
  intro a b hb hsooner
  have ha := hdistance a hsooner.mem
  obtain ⟨m, hreach⟩ := g.reach_eq_meet_generations (g.next c)
  rw [hreach 0, sooner_meet_iff] at hsooner
  obtain ⟨n, hn⟩ := Nat.exists_eq_succ_of_ne_zero (Nat.ne_of_gt (hdistance b hb).positive)
  have hwalk := (hdistance b hb).walk
  rw [hn] at hwalk ⊢
  obtain ⟨k, hk, walk⟩ := exists_walk_of_sooner hsooner (walk_succ_iff.mp hwalk)
  exact Nat.le_trans (ha.least (k + 1) (Nat.succ_pos k) (walk_succ_iff.mpr walk))
    (Nat.succ_le_succ hk)

end NameGraph

namespace Store

/-- In every store the search along inclusions comes to its end and finds each name that the roots lead
to once and nothing else.  So does the search for the ancestors of a visible class, along the direct
superclasses; it finds what the class leads to in one or more steps, nearer names first. -/
theorem reached_exactly (s : Store) :
    (∀ roots, Visits .breadthFirst id s.includeGraph.next roots [] (s.closure roots)
        ∧ (s.closure roots).Nodup
        ∧ ∀ name, name ∈ s.closure roots ↔ ∃ root ∈ roots, s.includeGraph.Leads root name)
      ∧ ∀ c ∈ s.classes, ∃ d above, s.hierarchy.declaration c = .ok d
        ∧ s.hierarchy.ancestors c = .ok above
        ∧ Visits .breadthFirst id s.hierarchy.superGraph.next d.superclasses [] above
        ∧ above.Nodup
        ∧ (∀ name, name ∈ above ↔ ∃ n, s.hierarchy.superGraph.Walk (n + 1) c name)
        ∧ ∃ distance : String → Nat,
          (∀ name ∈ above, s.hierarchy.superGraph.Distance c name (distance name))
            ∧ above.Pairwise fun a b => distance a ≤ distance b := by
  refine ⟨fun roots => ⟨s.includeGraph.visits_reach roots, s.includeGraph.nodup_reach roots,
    fun _ => NameGraph.mem_reach_iff⟩, fun c hc => ?_⟩
  obtain ⟨d, hd⟩ := OrderedMap.mem_keys_iff.mp hc
  have hnext := Hierarchy.next_superGraph hd
  have hancestors : s.hierarchy.ancestors c
      = .ok (s.hierarchy.superGraph.reach (s.hierarchy.superGraph.next c)) := by
    rw [hnext, Hierarchy.ancestors, Hierarchy.declaration_eq_ok.mpr hd]
    rfl
  have hdistance : ∀ name, ∃ n, name ∈ s.hierarchy.superGraph.reach (s.hierarchy.superGraph.next c) →
      s.hierarchy.superGraph.Distance c name n := by
    intro name
    by_cases hname : name ∈ s.hierarchy.superGraph.reach (s.hierarchy.superGraph.next c)
    · obtain ⟨n, walk⟩ := NameGraph.mem_reach_next_iff.mp hname
      obtain ⟨m, hm⟩ := NameGraph.exists_distance walk
      exact ⟨m, fun _ => hm⟩
    · exact ⟨0, fun h => absurd h hname⟩
  obtain ⟨distance, hdistance⟩ := Classical.axiomOfChoice hdistance
  refine ⟨d, _, Hierarchy.declaration_eq_ok.mpr hd, hancestors, ?_, NameGraph.nodup_reach _ _,
    fun _ => NameGraph.mem_reach_next_iff, distance, hdistance,
    NameGraph.pairwise_reach_next hdistance⟩
  rw [← hnext]
  exact s.hierarchy.superGraph.visits_reach _

/-- Two databases that include each other, and two classes that derive from each other, one of them
twice and from a class that does not exist. -/
def entangled : Store :=
  after [
    .addSchema "s" {
      classes := [{ name := "C", superclasses := ["A", "Missing", "A"] },
        { name := "A", superclasses := ["C"] }] },
    .createDatabase "d" ["s"], .addDatabase "e" ["d", "s"], .addInclude "d" "e"]

/-- The class is its own ancestor, two steps away, and comes after those that are one step away. -/
theorem reached_exactly_entangled :
    (entangled.closure ["e", "nowhere", "e"] = ["e", "nowhere", "d", "s"]
        ∧ entangled.includeGraph.Leads "e" "s")
      ∧ "C" ∈ entangled.classes
      ∧ ∃ distance : String → Nat,
        (∀ name ∈ ["A", "Missing", "C"],
            entangled.hierarchy.superGraph.Distance "C" name (distance name))
          ∧ ["A", "Missing", "C"].Pairwise fun a b => distance a ≤ distance b := by
  obtain ⟨hclosure, hancestors⟩ := entangled.reached_exactly
  have hfound : entangled.closure ["e", "nowhere", "e"] = ["e", "nowhere", "d", "s"] := by
    decide +kernel
  have hclass : "C" ∈ entangled.classes := by decide +kernel
  obtain ⟨d, above, -, habove, -, -, -, hdistance⟩ := hancestors "C" hclass
  have hlisted : entangled.hierarchy.ancestors "C" = .ok ["A", "Missing", "C"] := by rfl
  obtain rfl := Except.ok.inj (habove.symm.trans hlisted)
  refine ⟨⟨hfound, ?_⟩, hclass, hdistance⟩
  obtain ⟨root, hroot, hleads⟩ := ((hclosure ["e"]).2.2 "s").mp (by decide +kernel)
  exact List.mem_singleton.mp hroot ▸ hleads

end Store

end RecordGraph
