/-!
Visiting what a graph holds from given nodes on.  Nodes with the same key count as one, and only the
first of them that the visit takes up is listed.
-/

namespace RecordGraph

universe u v

/-- In which order a visit takes up the nodes that it has found. -/
inductive VisitOrder
  /-- Nodes found earlier come first. -/
  | breadthFirst
  /-- What a node leads to comes before all that was waiting already. -/
  | depthFirst
deriving DecidableEq, Repr

variable {α : Type u} {κ : Type v}

/-- What waits after a visit has found more nodes. -/
def VisitOrder.enqueue : VisitOrder → List α → List α → List α
  | .breadthFirst, waiting, found => waiting ++ found
  | .depthFirst, waiting, found => found ++ waiting

/-- Takes up the waiting nodes one after the other.  A node whose key was not seen is put to the
others, and what it leads to joins the waiting ones.  The number bounds the nodes taken up. -/
def visit [DecidableEq κ] (order : VisitOrder) (key : α → κ) (next : α → List α) :
    Nat → List α → List α → List α
  | 0, _, seen => seen
  | _ + 1, [], seen => seen
  | steps + 1, node :: waiting, seen =>
    if seen.any fun other => key other = key node then visit order key next steps waiting seen
    else visit order key next steps (order.enqueue waiting (next node)) (seen ++ [node])

theorem nodup_visit [DecidableEq κ] (order : VisitOrder) (key : α → κ) (next : α → List α)
    (steps : Nat) (waiting seen : List α) (h : (seen.map key).Nodup) :
    ((visit order key next steps waiting seen).map key).Nodup := by
  induction steps generalizing waiting seen with
  | zero => exact h
  | succ steps ih =>
    cases waiting with
    | nil => exact h
    | cons node waiting =>
      rw [visit]
      split
      · exact ih _ _ h
      · rename_i hnew
        apply ih
        rw [List.map_append, List.nodup_append]
        refine ⟨h, by simp, ?_⟩
        intro a ha b hb
        obtain ⟨other, hother, rfl⟩ := List.mem_map.mp ha
        simp only [List.map_cons, List.map_nil, List.mem_singleton] at hb
        rintro heq
        exact hnew (List.any_eq_true.mpr ⟨other, hother, by simp [heq, hb]⟩)

end RecordGraph
