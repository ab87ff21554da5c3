import RecordGraph.Reach

/-!
What a visit finds.  A visit lists nothing but what the waiting nodes lead to, and one that comes to
its end lists all of it: every node that a listed one leads to has its key among the listed ones.  With
steps enough a visit comes to its end.  In a finite graph of names the search therefore finds exactly
the names that the roots lead to.
-/

namespace RecordGraph

universe u v

variable {α : Type u} {κ : Type v}

theorem mem_enqueue {order : VisitOrder} {waiting found : List α} {x : α} :
    x ∈ order.enqueue waiting found ↔ x ∈ waiting ∨ x ∈ found := by
  cases order with
  | breadthFirst => exact List.mem_append
  | depthFirst => exact List.mem_append.trans Or.comm

theorem length_enqueue (order : VisitOrder) (waiting found : List α) :
    (order.enqueue waiting found).length = waiting.length + found.length := by
  cases order with
  | breadthFirst => exact List.length_append
  | depthFirst => exact List.length_append.trans (Nat.add_comm ..)

/-! ### Visits that come to an end -/

/-- What nodes lead to has its keys among other nodes. -/
def Covered (key : α → κ) (next : α → List α) (nodes among : List α) : Prop :=
  ∀ x ∈ nodes, ∀ y ∈ next x, ∃ z ∈ among, key z = key y

variable {key : α → κ} {next : α → List α} {waiting seen : List α} {node : α}

/-- A waiting node is passed over whose key was seen. -/
theorem Covered.pass (h : Covered key next seen (seen ++ node :: waiting)) {other : α}
    (hother : other ∈ seen) (heq : key other = key node) :
    Covered key next seen (seen ++ waiting) := by
  intro x hx y hy
  obtain ⟨z, hz, hkey⟩ := h x hx y hy
  rcases List.mem_append.mp hz with hz | hz
  · exact ⟨z, List.mem_append_left _ hz, hkey⟩
  · rcases List.mem_cons.mp hz with rfl | hz
    · exact ⟨other, List.mem_append_left _ hother, heq.trans hkey⟩
    · exact ⟨z, List.mem_append_right _ hz, hkey⟩

/-- A waiting node is listed, and what it leads to waits. -/
theorem Covered.take (h : Covered key next seen (seen ++ node :: waiting)) (order : VisitOrder) :
    Covered key next (seen ++ [node])
      ((seen ++ [node]) ++ order.enqueue waiting (next node)) := by
  intro x hx y hy
  rcases List.mem_append.mp hx with hx | hx
  · obtain ⟨z, hz, hkey⟩ := h x hx y hy
    refine ⟨z, ?_, hkey⟩
    rcases List.mem_append.mp hz with hz | hz
    · exact List.mem_append_left _ (List.mem_append_left _ hz)
    · rcases List.mem_cons.mp hz with rfl | hz
      · exact List.mem_append_left _ (List.mem_append_right _ List.mem_cons_self)
      · exact List.mem_append_right _ (mem_enqueue.mpr (Or.inl hz))
  · obtain rfl := List.mem_singleton.mp hx
    exact ⟨y, List.mem_append_right _ (mem_enqueue.mpr (Or.inr hy)), rfl⟩

/-- A visit that goes on until nothing waits.  The node that waits first is passed over if its key was
seen; otherwise it is listed, and what it leads to joins the waiting ones. -/
inductive Visits (order : VisitOrder) (key : α → κ) (next : α → List α) :
    List α → List α → List α → Prop
  | done (seen : List α) : Visits order key next [] seen seen
  | pass {node : α} {waiting seen out : List α} (met : ∃ other ∈ seen, key other = key node)
      (rest : Visits order key next waiting seen out) :
      Visits order key next (node :: waiting) seen out
  | take {node : α} {waiting seen out : List α} (fresh : ∀ other ∈ seen, key other ≠ key node)
      (rest : Visits order key next (order.enqueue waiting (next node)) (seen ++ [node]) out) :
      Visits order key next (node :: waiting) seen out

namespace Visits

variable {order : VisitOrder} {out out' : List α}

/-- A visit comes to one end only. -/
theorem unique (h : Visits order key next waiting seen out)
    (h' : Visits order key next waiting seen out') : out = out' := by
  induction h with
  | done seen =>
    cases h'
    rfl
  | pass met _ ih =>
    cases h' with
    | pass _ rest => exact ih rest
    | take fresh _ =>
      obtain ⟨other, hother, heq⟩ := met
      exact absurd heq (fresh other hother)
  | take fresh _ ih =>
    cases h' with
    | pass met _ =>
      obtain ⟨other, hother, heq⟩ := met
      exact absurd heq (fresh other hother)
    | take _ rest => exact ih rest

theorem seen_prefix (h : Visits order key next waiting seen out) : seen <+: out := by
  induction h with
  | done => exact List.prefix_rfl
  | pass _ _ ih => exact ih
  | @take node waiting seen out _ _ ih => exact (List.prefix_append seen [node]).trans ih

/-- What waits has its key among the listed nodes at the end, and so has what these lead to. -/
theorem covered (h : Visits order key next waiting seen out)
    (hseen : Covered key next seen (seen ++ waiting)) :
    (∀ x ∈ waiting, ∃ z ∈ out, key z = key x) ∧ Covered key next out out := by
  induction h with
  | done seen => simpa using hseen
  | @pass node waiting seen out met rest ih =>
    obtain ⟨other, hother, heq⟩ := met
    obtain ⟨hwaiting, hclosed⟩ := ih (hseen.pass hother heq)
    refine ⟨fun x hx => ?_, hclosed⟩
    rcases List.mem_cons.mp hx with rfl | hx
    · exact ⟨other, rest.seen_prefix.subset hother, heq⟩
    · exact hwaiting x hx
  | @take node waiting seen out _ rest ih =>
    obtain ⟨hwaiting, hclosed⟩ := ih (hseen.take order)
    refine ⟨fun x hx => ?_, hclosed⟩
    rcases List.mem_cons.mp hx with rfl | hx
    · exact ⟨x, rest.seen_prefix.subset (by simp), rfl⟩
    · exact hwaiting x (mem_enqueue.mpr (Or.inl hx))

end Visits

/-! ### Visits with steps enough -/

variable [DecidableEq κ]

theorem visit_sound (order : VisitOrder) (key : α → κ) (next : α → List α) (P : α → Prop)
    (closed : ∀ x, P x → ∀ y ∈ next x, P y) (steps : Nat) {waiting seen : List α}
    (hwaiting : ∀ x ∈ waiting, P x) (hseen : ∀ x ∈ seen, P x) :
    ∀ x ∈ visit order key next steps waiting seen, P x := by
  induction steps generalizing waiting seen with
  | zero => exact hseen
  | succ steps ih =>
    cases waiting with
    | nil => exact hseen
    | cons node waiting =>
      have hnode : P node := hwaiting node List.mem_cons_self
      have hrest : ∀ x ∈ waiting, P x := fun x hx => hwaiting x (List.mem_cons_of_mem node hx)
      rw [visit]
      split
      · exact ih hrest hseen
      · apply ih
        · intro x hx
          rcases mem_enqueue.mp hx with hx | hx
          · exact hrest x hx
          · exact closed node hnode x hx
        · intro x hx
          rcases List.mem_append.mp hx with hx | hx
          · exact hseen x hx
          · exact List.mem_singleton.mp hx ▸ hnode

/-- A bound on the waiting nodes that are still to come goes down by what each new node leads to; a
visit with steps enough for it comes to its end. -/
theorem visits_visit (order : VisitOrder) (key : α → κ) (next : α → List α) (cost : List α → Nat)
    (hcost : ∀ seen node, (∀ other ∈ seen, key other ≠ key node) →
      cost (seen ++ [node]) + (next node).length ≤ cost seen)
    (steps : Nat) {waiting seen : List α} (hsteps : waiting.length + cost seen ≤ steps) :
    Visits order key next waiting seen (visit order key next steps waiting seen) := by
  induction steps generalizing waiting seen with
  | zero =>
    have hnil : waiting = [] := List.eq_nil_of_length_eq_zero (by omega)
    subst hnil
    exact .done seen
  | succ steps ih =>
    cases waiting with
    | nil => exact .done seen
    | cons node waiting =>
      rw [List.length_cons] at hsteps
      rw [visit]
      split
      · rename_i hold
        obtain ⟨other, hother, heq⟩ := List.any_eq_true.mp hold
        exact .pass ⟨other, hother, of_decide_eq_true heq⟩ (ih (by omega))
      · rename_i hnew
        have hfresh : ∀ other ∈ seen, key other ≠ key node := by
          intro other hother heq
          exact hnew (List.any_eq_true.mpr ⟨other, hother, decide_eq_true heq⟩)
        have hdrop := hcost seen node hfresh
        refine .take hfresh (ih ?_)
        rw [length_enqueue]
        omega

/-- The weights of the sources outside a list. -/
def weightOutside : List (κ × Nat) → List κ → Nat
  | [], _ => 0
  | (k, weight) :: sources, seen =>
    (if k ∈ seen then 0 else weight) + weightOutside sources seen

theorem weightOutside_append_le (sources : List (κ × Nat)) (seen : List κ) (k : κ) :
    weightOutside sources (seen ++ [k]) ≤ weightOutside sources seen := by
  induction sources with
  | nil => exact Nat.le_refl _
  | cons source sources ih =>
    simp only [weightOutside, List.mem_append, List.mem_singleton]
    split <;> split <;> first | omega | simp_all

theorem weightOutside_append_add_le {sources : List (κ × Nat)} {seen : List κ} {k : κ}
    {weight : Nat} (hsource : (k, weight) ∈ sources) (hnew : k ∉ seen) :
    weightOutside sources (seen ++ [k]) + weight ≤ weightOutside sources seen := by
  induction sources with
  | nil => simp at hsource
  | cons source sources ih =>
    rcases List.mem_cons.mp hsource with rfl | hsource
    · have hrest := weightOutside_append_le sources seen k
      simp only [weightOutside, List.mem_append, List.mem_singleton, or_true, if_true, hnew,
        if_false]
      omega
    · have hrest := ih hsource
      simp only [weightOutside, List.mem_append, List.mem_singleton]
      split <;> split <;> first | omega | simp_all

theorem weightOutside_nil (sources : List (κ × Nat)) :
    weightOutside sources [] = (sources.map Prod.snd).foldr (· + ·) 0 := by
  induction sources with
  | nil => rfl
  | cons source sources ih => simp [weightOutside, ih]

/-! ### Graphs of names -/

namespace NameGraph

theorem Leads.trans {g : NameGraph} {a b c : String} (hab : g.Leads a b) (hbc : g.Leads b c) :
    g.Leads a c := by
  induction hbc with
  | refl => exact hab
  | tail _ hstep ih => exact .tail ih hstep

/-- How many names each name leads to. -/
def degrees (g : NameGraph) : List (String × Nat) := g.entries.map fun e => (e.1, e.2.length)

theorem weightOutside_degrees (g : NameGraph) : weightOutside g.degrees [] = g.edgeCount := by
  rw [weightOutside_nil, degrees, edgeCount, OrderedMap.values]
  simp only [List.map_map]
  rfl

theorem weightOutside_next_le (g : NameGraph) {seen : List String} {name : String}
    (hnew : name ∉ seen) :
    weightOutside g.degrees (seen ++ [name]) + (g.next name).length
      ≤ weightOutside g.degrees seen := by
  unfold next OrderedMap.get?
  cases hfound : g.entries.find? fun e => e.1 = name with
  | none => simpa using weightOutside_append_le g.degrees seen name
  | some e =>
    have hkey : e.1 = name := by simpa using List.find?_some hfound
    have hmem : (name, e.2.length) ∈ g.degrees :=
      List.mem_map.mpr ⟨e, List.mem_of_find?_eq_some hfound, by rw [hkey]⟩
    exact weightOutside_append_add_le hmem hnew

/-- The search goes on until no name waits. -/
theorem visits_reach (g : NameGraph) (roots : List String) :
    Visits .breadthFirst id g.next roots [] (g.reach roots) := by
  refine visits_visit .breadthFirst id g.next (weightOutside g.degrees) (fun seen node hfresh => ?_)
    (roots.length + g.edgeCount) (Nat.le_of_eq (by rw [weightOutside_degrees]))
  exact g.weightOutside_next_le fun hmem => hfresh node hmem rfl

/-- The search finds exactly the names that the roots lead to. -/
theorem mem_reach_iff {g : NameGraph} {roots : List String} {name : String} :
    name ∈ g.reach roots ↔ ∃ root ∈ roots, g.Leads root name := by
  constructor
  · refine visit_sound .breadthFirst id g.next (fun x => ∃ root ∈ roots, g.Leads root x) ?_ _
      (fun x hx => ⟨x, hx, .refl x⟩) (by simp) name
    rintro x ⟨root, hroot, hleads⟩ y hy
    exact ⟨root, hroot, .tail hleads hy⟩
  · rintro ⟨root, hroot, hleads⟩
    obtain ⟨hroots, hclosed⟩ := (g.visits_reach roots).covered (by simp [Covered])
    induction hleads with
    | refl =>
      obtain ⟨z, hz, rfl⟩ := hroots root hroot
      exact hz
    | tail _ hstep ih =>
      obtain ⟨z, hz, rfl⟩ := hclosed _ ih _ hstep
      exact hz

end NameGraph

end RecordGraph
