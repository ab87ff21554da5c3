import RecordGraph.OrderedMap
import RecordGraph.Visit

/-!
Reachability in a finite graph of names.  The search goes breadth first, admits every name once, and
lists names in the order in which it found them.  A name without edges, or one that the graph does
not know, leads nowhere.
-/

namespace RecordGraph

/-- A finite graph: the names that each name leads to. -/
abbrev NameGraph := OrderedMap String (List String)

namespace NameGraph

/-- The names that a name leads to. -/
def next (g : NameGraph) (name : String) : List String := (g.get? name).getD []

/-- One name leads to another in one step. -/
def Step (g : NameGraph) (a b : String) : Prop := b ∈ g.next a

/-- One name leads to another in any number of steps. -/
inductive Leads (g : NameGraph) : String → String → Prop
  | refl (a : String) : Leads g a a
  | tail {a b c : String} (h : Leads g a b) (s : g.Step b c) : Leads g a c

/-- How many edges the graph has. -/
def edgeCount (g : NameGraph) : Nat := (g.values.map List.length).foldr (· + ·) 0

/-- The names that the roots lead to, the roots among them.  Every edge makes one name wait at most,
which bounds the visit. -/
def reach (g : NameGraph) (roots : List String) : List String :=
  visit .breadthFirst id g.next (roots.length + g.edgeCount) roots []

theorem nodup_reach (g : NameGraph) (roots : List String) : (g.reach roots).Nodup := by
  have h := nodup_visit .breadthFirst id g.next (roots.length + g.edgeCount) roots [] (by simp)
  rwa [List.map_id] at h

end NameGraph

end RecordGraph
