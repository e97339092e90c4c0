import WidgetFlow.Graph.Basic
import WidgetFlow.Search

/-!
# Reachability along flow

A flow into an operation ends there, for what the operation does with a value is for the solver to say. Searches
therefore find operations and do not pass through them, except when they start at one.
-/

namespace WidgetFlow.Graph

open Std

variable (g : Graph)

/-- The nodes that a search passes through. -/
def nonOps : List NodeId := g.ids.filter fun n => !g.isOp n

/-- The nodes that the values of a node reach. -/
def forward (start : NodeId) : NodeSet :=
  .ofList (Search.bfs g.successors g.nonOps start)

/-- The predecessors of a node on the way back to `start`. An operation has no operation behind it. -/
def behind (start n : NodeId) : List NodeId :=
  if g.isOp start then (g.predecessors n).filter fun m => !g.isOp m else g.predecessors n

/-- The nodes whose values reach a node, nearest first. -/
def backwardOrder (start : NodeId) : List NodeId :=
  Search.bfs (g.behind start) g.nonOps start

/-- The nodes whose values reach a node. -/
def backward (start : NodeId) : NodeSet :=
  .ofList (g.backwardOrder start)

end WidgetFlow.Graph
