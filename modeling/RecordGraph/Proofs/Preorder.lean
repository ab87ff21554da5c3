import RecordGraph.Proofs.Visit

/-!
The recursive walk through a graph.  A visit that goes depth first keeps in one list what the calls of
the walk still have to go through, the innermost call first, and so both list the same nodes in the
same order.
-/

namespace RecordGraph

universe u v

variable {α : Type u} {κ : Type v} {key : α → κ} {next : α → List α}

/-- What walking through nodes one after the other makes of the nodes that were listed.  A node whose
key was listed is skipped; any other one is listed, and then the walk goes through what it leads to
before it comes to the rest. -/
inductive Walks (key : α → κ) (next : α → List α) : List α → List α → List α → Prop
  | done (seen : List α) : Walks key next [] seen seen
  | skip {node : α} {nodes seen out : List α} (met : ∃ other ∈ seen, key other = key node)
      (rest : Walks key next nodes seen out) : Walks key next (node :: nodes) seen out
  | enter {node : α} {nodes seen below out : List α} (fresh : ∀ other ∈ seen, key other ≠ key node)
      (inner : Walks key next (next node) (seen ++ [node]) below)
      (rest : Walks key next nodes below out) : Walks key next (node :: nodes) seen out

variable {nodes others seen mid out : List α}

/-- A walk through two lists is a walk through the first and then one through the second. -/
theorem walks_append_iff :
    Walks key next (nodes ++ others) seen out
      ↔ ∃ mid, Walks key next nodes seen mid ∧ Walks key next others mid out := by
  induction nodes generalizing seen with
  | nil =>
    constructor
    · intro h
      exact ⟨seen, .done seen, h⟩
    · rintro ⟨mid, hnone, hothers⟩
      cases hnone
      exact hothers
  | cons node nodes ih =>
    constructor
    · intro h
      cases h with
      | skip met rest =>
        obtain ⟨mid, hnodes, hothers⟩ := ih.mp rest
        exact ⟨mid, .skip met hnodes, hothers⟩
      | enter fresh inner rest =>
        obtain ⟨mid, hnodes, hothers⟩ := ih.mp rest
        exact ⟨mid, .enter fresh inner hnodes, hothers⟩
    · rintro ⟨mid, h, hothers⟩
      cases h with
      | skip met rest => exact .skip met (ih.mpr ⟨mid, rest, hothers⟩)
      | enter fresh inner rest => exact .enter fresh inner (ih.mpr ⟨mid, rest, hothers⟩)

/-- A visit that goes depth first has done with what waits first before it comes to the rest. -/
theorem Visits.append (h : Visits .depthFirst key next nodes seen mid)
    (h' : Visits .depthFirst key next others mid out) :
    Visits .depthFirst key next (nodes ++ others) seen out := by
  induction h with
  | done => exact h'
  | pass met _ ih => exact .pass met (ih h')
  | @take node nodes seen mid fresh _ ih =>
    refine .take fresh ?_
    have hwaiting := ih h'
    rw [VisitOrder.enqueue, List.append_assoc] at hwaiting
    exact hwaiting

/-- The recursive walk and the visit that goes depth first come to the same. -/
theorem walks_iff_visits :
    Walks key next nodes seen out ↔ Visits .depthFirst key next nodes seen out := by
  constructor
  · intro h
    induction h with
    | done seen => exact .done seen
    | skip met _ ih => exact .pass met ih
    | enter fresh _ _ hinner hrest => exact .take fresh (hinner.append hrest)
  · intro h
    induction h with
    | done seen => exact .done seen
    | pass met _ ih => exact .skip met ih
    | take fresh _ ih =>
      obtain ⟨below, hinner, hrest⟩ := walks_append_iff.mp ih
      exact .enter fresh hinner hrest

end RecordGraph
