import WidgetFlow.Flowgraph.Binding
import WidgetFlow.Flowgraph.Callback

/-!
# Construction

The flowgraph of an application: ids, methods that the framework runs, statements, then what had to wait for all
statements.
-/

namespace WidgetFlow.Flowgraph

/-- The steps of the construction. -/
def construct : Build Unit := do
  createIdNodes
  addCallbacks
  addStmts
  linkArrays
  runDialogs
  addDefaultRoots
  addListItemClicks
  runLists
  runTabs
  runMenuTasks
  remark (.graphBuilt (← getGraph).size)

/-- The flowgraph of an application. A strict construction ends at the first violation. -/
def build (c : Context) : Except Fault Flowgraph :=
  match ((construct.run c).run {}) with
  | (.ok (), f) => .ok f
  | (.error e, _) => .error e

end WidgetFlow.Flowgraph
