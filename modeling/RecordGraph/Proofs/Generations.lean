import RecordGraph.Proofs.Visit

/-!
Going through a graph generation by generation.  The first generation are given nodes, and each next
one is what the nodes of the one before lead to, with repetitions.  A visit that goes breadth first
lists nodes in the order in which the generations come to them first: what it passes over would have
led to nothing new.
-/

namespace RecordGraph

universe u

variable {α : Type u}

/-! ### What comes first in a list -/

/-- In a list one node comes before another one does, if that one comes at all. -/
def Sooner (xs : List α) (x y : α) : Prop :=
  ∃ before after, xs = before ++ x :: after ∧ y ∉ before ∧ y ≠ x

section Sooner

variable {xs ys : List α} {x y z : α}

theorem Sooner.mem (h : Sooner xs x y) : x ∈ xs := by
  obtain ⟨before, after, rfl, -⟩ := h
  exact List.mem_append_right _ List.mem_cons_self

theorem Sooner.append_right (h : Sooner xs x y) (ys : List α) : Sooner (xs ++ ys) x y := by
  obtain ⟨before, after, rfl, hy, hne⟩ := h
  exact ⟨before, after ++ ys, by simp, hy, hne⟩

theorem Sooner.append_left (h : Sooner ys x y) (hy : y ∉ xs) : Sooner (xs ++ ys) x y := by
  obtain ⟨before, after, rfl, hnew, hne⟩ := h
  exact ⟨xs ++ before, after, by simp, by simp [hy, hnew], hne⟩

theorem sooner_append_iff : Sooner (xs ++ ys) x y ↔ Sooner xs x y ∨ y ∉ xs ∧ Sooner ys x y := by
  refine ⟨?_, fun h => h.elim (fun h => h.append_right ys) fun h => h.2.append_left h.1⟩
  rintro ⟨before, after, heq, hy, hne⟩
  rcases List.append_eq_append_iff.mp heq with ⟨rest, rfl, rfl⟩ | ⟨rest, rfl, hrest⟩
  · rw [List.mem_append, not_or] at hy
    exact .inr ⟨hy.1, rest, after, rfl, hy.2, hne⟩
  · cases rest with
    | nil =>
      rw [List.append_nil] at *
      exact .inr ⟨hy, [], after, hrest.symm, List.not_mem_nil, hne⟩
    | cons first rest =>
      obtain ⟨rfl, -⟩ := List.cons.inj hrest
      exact .inl ⟨before, rest, rfl, hy, hne⟩

theorem sooner_singleton_iff : Sooner [z] x y ↔ x = z ∧ y ≠ x := by
  constructor
  · rintro ⟨before, after, heq, -, hne⟩
    cases before with
    | nil => exact ⟨(List.cons.inj heq).1.symm, hne⟩
    | cons _ _ => simp at heq
  · rintro ⟨rfl, hne⟩
    exact ⟨[], [], rfl, List.not_mem_nil, hne⟩

theorem Sooner.asymm (h : Sooner xs x y) : ¬ Sooner xs y x := by
  obtain ⟨before, after, rfl, hy, hne⟩ := h
  intro hback
  rcases sooner_append_iff.mp hback with hback | ⟨-, other, rest, heq, hx, -⟩
  · exact hy hback.mem
  · cases other with
    | nil => exact hne (List.cons.inj heq).1.symm
    | cons first other =>
      obtain ⟨rfl, -⟩ := List.cons.inj heq
      exact hx List.mem_cons_self

theorem Sooner.trans (hxy : Sooner xs x y) (hyz : Sooner xs y z) : Sooner xs x z := by
  have hzx : z ≠ x := fun heq => hxy.asymm (heq ▸ hyz)
  obtain ⟨before, after, rfl, hy, hne⟩ := hxy
  refine ⟨before, after, rfl, fun hz => ?_, hzx⟩
  rcases sooner_append_iff.mp hyz with hyz | ⟨hz', -⟩
  · exact hy hyz.mem
  · exact hz' hz

theorem sooner_cons_iff : Sooner (z :: xs) x y ↔ x = z ∧ y ≠ x ∨ y ≠ z ∧ Sooner xs x y := by
  rw [← List.singleton_append, sooner_append_iff, sooner_singleton_iff, List.mem_singleton]

/-- Of two different members of a list one comes before the other one does. -/
theorem sooner_total (hx : x ∈ xs) (hy : y ∈ xs) (hne : x ≠ y) : Sooner xs x y ∨ Sooner xs y x := by
  induction xs with
  | nil => cases hx
  | cons z xs ih =>
    rw [sooner_cons_iff, sooner_cons_iff]
    by_cases hxz : x = z
    · exact .inl (.inl ⟨hxz, hne.symm⟩)
    by_cases hyz : y = z
    · exact .inr (.inl ⟨hyz, hne⟩)
    have hx := (List.mem_cons.mp hx).resolve_left hxz
    have hy := (List.mem_cons.mp hy).resolve_left hyz
    exact (ih hx hy).imp (fun h => .inr ⟨hyz, h⟩) fun h => .inr ⟨hxz, h⟩

/-- What is ordered pairwise is ordered by what comes first. -/
theorem pairwise_iff_sooner {R : α → α → Prop} (hnodup : xs.Nodup) :
    xs.Pairwise R ↔ ∀ x y, y ∈ xs → Sooner xs x y → R x y := by
  induction xs with
  | nil => simp
  | cons z xs ih =>
    obtain ⟨hz, hrest⟩ := List.nodup_cons.mp hnodup
    rw [List.pairwise_cons, ih hrest]
    constructor
    · rintro ⟨hfirst, hlater⟩ x y hy hxy
      rcases sooner_cons_iff.mp hxy with ⟨rfl, hne⟩ | ⟨hne, hxy⟩
      · exact hfirst y ((List.mem_cons.mp hy).resolve_left hne)
      · exact hlater x y ((List.mem_cons.mp hy).resolve_left hne) hxy
    · intro h
      refine ⟨fun y hy => ?_, fun x y hy hxy => ?_⟩
      · have hne : y ≠ z := fun heq => hz (heq ▸ hy)
        exact h z y (List.mem_cons_of_mem z hy) (sooner_cons_iff.mpr (.inl ⟨rfl, hne⟩))
      · have hne : y ≠ z := fun heq => hz (heq ▸ hy)
        exact h x y (List.mem_cons_of_mem z hy) (sooner_cons_iff.mpr (.inr ⟨hne, hxy⟩))

end Sooner

variable [DecidableEq α]

/-! ### New nodes -/

/-- The nodes that are not known already, each once. -/
def unmet (met : List α) : List α → List α
  | [] => []
  | x :: xs => if x ∈ met then unmet met xs else x :: unmet (met ++ [x]) xs

/-- The nodes known already, and then those that are new. -/
def meet (met xs : List α) : List α := met ++ unmet met xs

section Meet

variable {met known xs ys : List α} {x y : α}

theorem meet_cons_of_mem (hx : x ∈ met) : meet met (x :: xs) = meet met xs := by
  rw [meet, unmet, if_pos hx, meet]

theorem meet_cons_of_not_mem (hx : x ∉ met) : meet met (x :: xs) = meet (met ++ [x]) xs := by
  rw [meet, unmet, if_neg hx, meet, List.append_assoc, List.singleton_append]

@[simp] theorem meet_nil : meet met [] = met := List.append_nil met

theorem meet_append : meet met (xs ++ ys) = meet (meet met xs) ys := by
  induction xs generalizing met with
  | nil => rw [List.nil_append, meet_nil]
  | cons x xs ih =>
    rw [List.cons_append]
    by_cases hx : x ∈ met
    · rw [meet_cons_of_mem hx, meet_cons_of_mem hx, ih]
    · rw [meet_cons_of_not_mem hx, meet_cons_of_not_mem hx, ih]

@[simp] theorem mem_meet : y ∈ meet met xs ↔ y ∈ met ∨ y ∈ xs := by
  induction xs generalizing met with
  | nil => simp
  | cons x xs ih =>
    by_cases hx : x ∈ met
    · rw [meet_cons_of_mem hx, ih, List.mem_cons]
      exact ⟨fun h => h.imp id .inr, fun h => h.elim .inl fun h => h.elim (fun h => .inl (h ▸ hx)) .inr⟩
    · rw [meet_cons_of_not_mem hx, ih, List.mem_append, List.mem_singleton, List.mem_cons, or_assoc]

/-- Nodes that are known change nothing. -/
theorem meet_of_subset (h : ∀ x ∈ xs, x ∈ met) : meet met xs = met := by
  induction xs with
  | nil => exact meet_nil
  | cons x xs ih =>
    rw [meet_cons_of_mem (h x List.mem_cons_self), ih fun y hy => h y (List.mem_cons_of_mem x hy)]

/-- Of two nodes the one that comes first in the list is the one that is met first. -/
theorem sooner_meet_iff : Sooner (meet met xs) x y ↔ Sooner (met ++ xs) x y := by
  induction xs generalizing met with
  | nil => rw [meet_nil, List.append_nil]
  | cons z xs ih =>
    have hsplit : met ++ z :: xs = met ++ [z] ++ xs := by simp
    by_cases hz : z ∈ met
    · have hrepeat : Sooner (met ++ [z]) x y ↔ Sooner met x y := by
        refine ⟨fun h => ?_, fun h => h.append_right _⟩
        rcases sooner_append_iff.mp h with h | ⟨hy, hx⟩
        · exact h
        · obtain ⟨rfl, hne⟩ := sooner_singleton_iff.mp hx
          obtain ⟨before, after, rfl⟩ := List.append_of_mem hz
          exact ⟨before, after, rfl, fun h => hy (List.mem_append_left _ h), hne⟩
      have hmem : y ∈ met ++ [z] ↔ y ∈ met := by
        rw [List.mem_append, List.mem_singleton]
        exact ⟨fun h => h.elim id fun h => h ▸ hz, .inl⟩
      rw [meet_cons_of_mem hz, ih, hsplit, sooner_append_iff, sooner_append_iff, hrepeat, hmem]
    · rw [meet_cons_of_not_mem hz, ih, hsplit]

/-- A node that is known and does not come again stands apart. -/
theorem meet_cons_left (hx : x ∉ xs) : meet (x :: met) xs = x :: meet met xs := by
  induction xs generalizing met with
  | nil => rw [meet_nil, meet_nil]
  | cons y ys ih =>
    rw [List.mem_cons, not_or] at hx
    have hmem : y ∈ x :: met ↔ y ∈ met := by simp [Ne.symm hx.1]
    by_cases hy : y ∈ met
    · rw [meet_cons_of_mem hy, meet_cons_of_mem (hmem.mpr hy), ih hx.2]
    · rw [meet_cons_of_not_mem hy, meet_cons_of_not_mem (mt hmem.mp hy), List.cons_append, ih hx.2]

end Meet

/-! ### Generations -/

/-- The nodes of so many generations, one generation after the other. -/
def generations (next : α → List α) : Nat → List α → List α
  | 0, _ => []
  | n + 1, nodes => nodes ++ generations next n (nodes.flatMap next)

section Generations

variable {next : α → List α} {met known xs ys : List α} {x y : α}

omit [DecidableEq α] in
@[simp] theorem generations_nil (n : Nat) : generations next n [] = [] := by
  induction n with
  | zero => rfl
  | succ n ih => rw [generations, List.flatMap_nil, ih, List.append_nil]

omit [DecidableEq α] in
/-- More generations go on from fewer. -/
theorem generations_prefix (m n : Nat) (nodes : List α) :
    generations next m nodes <+: generations next (m + n) nodes := by
  induction m generalizing nodes with
  | zero => exact List.nil_prefix
  | succ m ih =>
    rw [Nat.succ_add, generations, generations]
    exact (List.prefix_append_right_inj nodes).mpr (ih _)

/-- What the nodes lead to that are passed over is known already. -/
theorem meet_flatMap_unmet (hknown : ∀ x ∈ met, ∀ y ∈ next x, y ∈ known) :
    meet known ((unmet met xs).flatMap next) = meet known (xs.flatMap next) := by
  induction xs generalizing met known with
  | nil => rfl
  | cons x xs ih =>
    rw [List.flatMap_cons, meet_append]
    by_cases hx : x ∈ met
    · rw [unmet, if_pos hx, meet_of_subset (hknown x hx), ih hknown]
    · rw [unmet, if_neg hx, List.flatMap_cons, meet_append]
      refine ih fun z hz y hy => mem_meet.mpr ?_
      rcases List.mem_append.mp hz with hz | hz
      · exact .inl (hknown z hz y hy)
      · exact .inr (List.mem_singleton.mp hz ▸ hy)

theorem unmet_eq_of_meet_eq (h : meet met xs = meet met ys) : unmet met xs = unmet met ys :=
  List.append_cancel_left h

/-- Whether generations start from some nodes or from others among which the same ones are new, they
come to new nodes in the same order. -/
theorem meet_generations_congr (n : Nat) (h : meet met xs = meet met ys)
    (hknown : ∀ x ∈ met, ∀ y ∈ next x, y ∈ meet met xs) :
    meet met (generations next n xs) = meet met (generations next n ys) := by
  induction n generalizing met xs ys with
  | zero => rfl
  | succ n ih =>
    have hchildren : meet (meet met xs) (xs.flatMap next) = meet (meet met xs) (ys.flatMap next) := by
      rw [← meet_flatMap_unmet hknown, unmet_eq_of_meet_eq h, meet_flatMap_unmet hknown]
    rw [generations, generations, meet_append, meet_append, ← h]
    refine ih hchildren fun x hx y hy => mem_meet.mpr ?_
    rcases mem_meet.mp hx with hx | hx
    · exact .inl (hknown x hx y hy)
    · exact .inr (List.mem_flatMap.mpr ⟨x, hx, hy⟩)

/-! ### Visits -/

/-- A breadth-first visit takes up the nodes that wait first, and what they lead to waits then behind
the others. -/
theorem visit_breadthFirst_append {steps : Nat} (hsteps : xs.length ≤ steps) :
    visit .breadthFirst id next steps (xs ++ ys) met
      = visit .breadthFirst id next (steps - xs.length) (ys ++ (unmet met xs).flatMap next)
          (meet met xs) := by
  induction xs generalizing steps ys met with
  | nil => simp [unmet]
  | cons x xs ih =>
    obtain ⟨steps, rfl⟩ : ∃ k, steps = k + 1 := ⟨steps - 1, by simp at hsteps; omega⟩
    have hrest : xs.length ≤ steps := by simpa using hsteps
    have hany : (met.any fun other => id other = id x) = true ↔ x ∈ met := by
      simp
    rw [List.cons_append, visit, List.length_cons, Nat.add_sub_add_right]
    by_cases hx : x ∈ met
    · rw [if_pos (hany.mpr hx), ih hrest, meet_cons_of_mem hx, unmet, if_pos hx]
    · rw [if_neg (mt hany.mp hx), VisitOrder.enqueue, List.append_assoc, ih hrest,
        meet_cons_of_not_mem hx, unmet, if_neg hx, List.flatMap_cons, List.append_assoc]

/-- A bound on the nodes to come goes down by what the new nodes lead to. -/
theorem cost_meet {cost : List α → Nat}
    (hcost : ∀ met node, node ∉ met → cost (met ++ [node]) + (next node).length ≤ cost met) :
    cost (meet met xs) + ((unmet met xs).flatMap next).length ≤ cost met := by
  induction xs generalizing met with
  | nil => simp [unmet]
  | cons x xs ih =>
    by_cases hx : x ∈ met
    · rw [meet_cons_of_mem hx, unmet, if_pos hx]
      exact ih
    · have hfirst := hcost met x hx
      have hrest : cost (meet (met ++ [x]) xs) + ((unmet (met ++ [x]) xs).flatMap next).length
          ≤ cost (met ++ [x]) := ih
      rw [meet_cons_of_not_mem hx, unmet, if_neg hx, List.flatMap_cons, List.length_append]
      omega

/-- With steps enough a breadth-first visit lists nodes in the order in which the generations come to
them. -/
theorem visit_breadthFirst_eq {cost : List α → Nat}
    (hcost : ∀ met node, node ∉ met → cost (met ++ [node]) + (next node).length ≤ cost met)
    (steps : Nat) (hsteps : xs.length + cost met ≤ steps)
    (hknown : ∀ x ∈ met, ∀ y ∈ next x, y ∈ meet met xs) :
    ∃ m, ∀ n, visit .breadthFirst id next steps xs met = meet met (generations next (m + n) xs) := by
  -- The visit goes on with a whole generation at a time, which takes as many steps as nodes wait.
  induction steps using Nat.strongRecOn generalizing xs met with
  | _ steps ih =>
    cases hxs : xs with
    | nil =>
      refine ⟨0, fun n => ?_⟩
      rw [generations_nil, meet_nil]
      cases steps <;> rfl
    | cons first rest =>
      rw [← hxs]
      have hpositive : 0 < xs.length := by simp [hxs]
      have hlength : xs.length ≤ steps := by omega
      have hdrop : cost (meet met xs) + ((unmet met xs).flatMap next).length ≤ cost met :=
        cost_meet hcost
      have hfound : ∀ x ∈ meet met xs, ∀ y ∈ next x,
          y ∈ meet (meet met xs) ((unmet met xs).flatMap next) := by
        intro x hx y hy
        rw [meet_flatMap_unmet hknown, mem_meet]
        rcases mem_meet.mp hx with hx | hx
        · exact .inl (hknown x hx y hy)
        · exact .inr (List.mem_flatMap.mpr ⟨x, hx, hy⟩)
      obtain ⟨m, hvisit⟩ := ih (steps - xs.length) (by omega) (by omega) hfound
      refine ⟨m + 1, fun n => ?_⟩
      have hgeneration : visit .breadthFirst id next steps (xs ++ []) met
          = visit .breadthFirst id next (steps - xs.length) ([] ++ (unmet met xs).flatMap next)
            (meet met xs) := visit_breadthFirst_append hlength
      rw [List.append_nil, List.nil_append] at hgeneration
      rw [hgeneration, hvisit n, Nat.add_right_comm, generations, meet_append]
      exact meet_generations_congr (m + n) (meet_flatMap_unmet hknown) hfound

end Generations

/-! ### Graphs of names -/

namespace NameGraph

variable {g : NameGraph} {roots : List String} {a b c : String}

/-- The search lists names in the order in which the generations from the roots come to them. -/
theorem reach_eq_meet_generations (g : NameGraph) (roots : List String) :
    ∃ m, ∀ n, g.reach roots = meet [] (generations g.next (m + n) roots) :=
  visit_breadthFirst_eq (fun _ _ hnew => g.weightOutside_next_le hnew) _
    (Nat.le_of_eq (by rw [weightOutside_degrees])) (by simp)

/-- Going up from a name generation by generation comes to one name before it comes to another. -/
def MetBefore (g : NameGraph) (c a b : String) : Prop :=
  ∃ n, Sooner (generations g.next n [c]) a b

/-- However many generations come to a name before another, all further ones do. -/
theorem sooner_generations_mono {m n : Nat} (h : Sooner (generations g.next m roots) a b) :
    Sooner (generations g.next (m + n) roots) a b := by
  obtain ⟨rest, heq⟩ : generations g.next m roots <+: generations g.next (m + n) roots :=
    generations_prefix m n roots
  exact heq ▸ h.append_right rest

/-- A name that does not lead back to itself, followed by what the search finds from it on, stand in
the order in which the generations from the name come to them. -/
theorem sooner_cons_reach_iff (hacyclic : ∀ b ∈ g.next c, ¬ g.Leads b c) :
    Sooner (c :: g.reach (g.next c)) a b ↔ g.MetBefore c a b := by
  obtain ⟨m, hreach⟩ := g.reach_eq_meet_generations (g.next c)
  have hmeet : ∀ n, c :: g.reach (g.next c) = meet [] (generations g.next (m + n + 1) [c]) := by
    intro n
    have hnew : c ∉ generations g.next (m + n) (g.next c) := by
      intro hc
      have hmem : c ∈ g.reach (g.next c) := hreach n ▸ mem_meet.mpr (.inr hc)
      obtain ⟨b, hb, hleads⟩ := mem_reach_iff.mp hmem
      exact hacyclic b hb hleads
    rw [hreach n, ← meet_cons_left hnew, generations, List.flatMap_singleton, List.singleton_append,
      meet_cons_of_not_mem List.not_mem_nil]
    rfl
  constructor
  · intro h
    exact ⟨m + 0 + 1, by rwa [hmeet 0, sooner_meet_iff] at h⟩
  · rintro ⟨n, h⟩
    rw [hmeet n, sooner_meet_iff, List.nil_append, Nat.add_comm m n, Nat.add_assoc]
    exact sooner_generations_mono h

end NameGraph

end RecordGraph
