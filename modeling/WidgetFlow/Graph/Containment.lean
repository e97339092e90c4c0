import WidgetFlow.Graph.Basic
import WidgetFlow.Search
import WidgetFlow.Diagnostic

/-!
# Containment

Which widgets are inside which. A widget can have several parents, when the analysis cannot tell which one it has.
`nest` refuses an edge that would put a widget inside itself.
-/

namespace WidgetFlow.Graph

open Std

variable (g : Graph)

/-! ## Children and parents -/

def hasChild (parent child : NodeId) : Bool := g.containment.contains ⟨child, parent⟩

def children (n : NodeId) : List NodeId :=
  g.containment.toList.filterMap fun a => if a.dst = n then some a.src else none

/-- A node and everything inside it. -/
def descendants (n : NodeId) : NodeSet :=
  .ofList (Search.bfs g.children g.ids n)

/-- Puts `child` into `parent`, and tells whether it was not there before. -/
def nest (child parent : NodeId) : Except Violation (Graph × Bool) :=
  if child = parent then .error (.ownParent (g.describe child))
  else if g.hasChild parent child then .ok (g, false)
  else if parent ∈ g.descendants child then
    .error (.containmentCycle (g.describe child) (g.describe parent))
  else .ok ({ g with containment := g.containment.insert ⟨child, parent⟩ }, true)

/-! ## Outlines -/

/-- The line of a node: its description and the one of its id. -/
def outlineLine (depth : Nat) (n : NodeId) : String :=
  let indent := String.join (List.replicate depth "  ")
  let id := match (g.node? n).bind (·.id) with
    | some i => s!" id={g.describe i}"
    | none => ""
  s!"{indent}{g.describe n}{id}"

/-- The lines of a node and of everything inside it, children below their parents. A node on its own path is not
opened again. -/
def outlineLines (path : List NodeId) (n : NodeId) : List String :=
  g.outlineLine path.length n ::
    if n < g.size ∧ n ∉ path then (g.children n).flatMap fun c => outlineLines (n :: path) c else []
termination_by (g.ids.filter (· ∉ path)).length
decreasing_by
  rename_i h
  have hsub : g.ids.filter (· ∉ n :: path) = (g.ids.filter (· ∉ path)).filter (· ≠ n) := by
    rw [List.filter_filter]
    refine List.filter_congr fun x _ => ?_
    by_cases hx : x = n <;> simp [hx]
  rw [hsub]
  have hmem : n ∈ g.ids.filter (· ∉ path) := by simp [ids, h.1, h.2]
  refine Nat.lt_of_le_of_ne (List.length_filter_le _ _) fun heq => ?_
  have := (List.length_filter_eq_length_iff.mp heq) n hmem
  simp at this

/-- What is inside a node, as text. -/
def outline (root : NodeId) : String :=
  "\n".intercalate (g.outlineLines [] root)

end WidgetFlow.Graph
