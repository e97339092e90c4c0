import WidgetFlow.Framework
import WidgetFlow.Solution.State

/-!
# What a local can hold

The ids or the objects that flow into a local, together with the results of the operations that flow into it.
-/

namespace WidgetFlow

open Std

/-- What is asked for. -/
inductive Query where
  | id | activity | gui | listener
  deriving DecidableEq

/-- The local cannot hold what is asked for. -/
structure Query.Mismatch where
  query : Query
  var : Local
  deriving DecidableEq

def Query.Mismatch.message (m : Query.Mismatch) : String :=
  match m.query with
  | .id => s!"Cannot query ids of {m.var.name} with type {m.var.ty.text}"
  | .activity => s!"{m.var.name} with type {m.var.ty.text} is not an activity"
  | .gui => s!"{m.var.name} with type {m.var.ty.text} is not a GUI object"
  | .listener => s!"{m.var.name} with type {m.var.ty.text} is not a listener"

/-- The types of the locals that a query is for. -/
def Query.admits (c : Context) (ty : Ty) : Query → Bool
  | .id => ty = .int
  | .activity => ty.className?.any c.project.program.isActivity
  | .gui =>
    let p := c.project.program
    ty.className?.any fun cls => p.isView cls || p.isMenu cls || p.isMenuItem cls || p.isDialog cls
  | .listener => ty.className?.any (c.settings.isListener c.project.program)

namespace Solver

variable (s : Solver)

/-- The nodes whose values reach a local. A local without a node has none. -/
def sources (l : Local) : NodeSet :=
  match s.flowgraph.var? l with
  | some var => s.graph.backward var
  | none => ∅

def idValues (l : Local) : List NodeId :=
  (s.sources l).toList.filter fun n => (s.graph.id? n).isSome

/-- The objects that flow into a local, and the results that do. -/
def objectValues (l : Local) : NodeSet :=
  let sources := s.sources l
  let results := s.graph.ops.flatMap fun op =>
    if ((s.graph.op? op).bind (·.result)).any (sources.contains ·) then (s.results op).toList else []
  .ofList (sources.toList.filter (fun n => (s.graph.object? n).isSome) ++ results)

/-- The answer to a query. -/
def query (c : Context) (q : Query) (l : Local) : Except Query.Mismatch (List NodeId) :=
  if q.admits c l.ty then
    .ok (if q = .id then s.idValues l else (s.objectValues l).toList)
  else .error ⟨q, l⟩

end Solver

end WidgetFlow
