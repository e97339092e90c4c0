import WidgetFlow.Solution.State

/-!
# Summaries

All solutions of a solver, with nodes given by their descriptions, and their text.
-/

namespace WidgetFlow

open Std

/-- The solution of an operation. A registration has listeners instead of parameters. -/
structure OperationSolution where
  operation : String
  kind : OpTag
  artificial : Bool
  location : Option Label
  ids : List String
  receivers : List String
  parameters : List String
  results : List String
  listeners : List String
  event : Option EventKind
  handlers : List String

structure Summary where
  operations : List OperationSolution
  windowRoots : ExtTreeMap String (List String)
  optionsMenus : ExtTreeMap String String
  /-- The views of each context menu. -/
  contextMenus : ExtTreeMap String (List String)
  dialogs : ExtTreeMap String DialogRecord
  statistics : Statistics

namespace Solver

variable (s : Solver)

def describeAll (ns : NodeSet) : List String := ns.toList.map s.graph.describe

def operationSolution (n : NodeId) (op : Op) : OperationSolution :=
  let parameters := s.describeAll (s.parameters n)
  let isRegistration := op.kind.tag = .setListener
  { operation := s.graph.describe n
    kind := op.kind.tag
    artificial := op.artificial
    location := op.site.stmt
    ids := s.describeAll (s.idsOf n)
    receivers := s.describeAll (s.receivers n)
    parameters := if isRegistration then [] else parameters
    results := s.describeAll (s.results n)
    listeners := if isRegistration then parameters else []
    event := s.flowgraph.event? n
    handlers := (s.flowgraph.handlers n).toList }

/-- The description of a context menu and of the views that show it. -/
def contextMenuViews? (menu : NodeId) : Option (String × List String) :=
  match s.graph.object? menu with
  | some (.contextMenu _ _ views) => some (s.graph.describe menu, s.describeAll views)
  | _ => none

def summary : Summary :=
  let f := s.flowgraph
  let describe := s.graph.describe
  { operations := s.graph.ops.filterMap fun n => (s.graph.op? n).map (s.operationSolution n)
    windowRoots := .ofList (s.roots.toList.map fun (w, roots) => (describe w, s.describeAll roots))
    optionsMenus := .ofList (f.optionsMenus.toList.map fun (a, menu) => (a, describe menu))
    contextMenus := .ofList (f.contextMenus.toList.filterMap fun (_, menu) => s.contextMenuViews? menu)
    dialogs := .ofList (f.dialogs.toList.map fun (d, record) => (describe d, record))
    statistics := s.statistics }

end Solver

/-! ## Text -/

def OperationSolution.lines (o : OperationSolution) : List String :=
  let sets := [("ids", o.ids), ("receivers", o.receivers), ("parameters", o.parameters), ("results", o.results),
    ("listeners", o.listeners), ("handlers", o.handlers)]
  o.operation :: sets.filterMap fun (name, values) =>
    if values.isEmpty then none
    else
      let text := ", ".intercalate values
      some s!"  {name}: {text}"

def DialogRecord.line (dialog : String) (r : DialogRecord) : String :=
  let handlers := ", ".intercalate (r.lifecycle.toList ++ r.others.toList)
  s!"{dialog}: {r.shows.size} shows, {r.dismisses.size} dismisses, handlers {handlers}"

def Statistics.line (t : Statistics) : String :=
  s!"{t.passes} propagation passes, {t.classifications} classifications, {t.inflated} inflated nodes"

namespace Summary

def lines (s : Summary) : List String :=
  s.operations.flatMap (·.lines)
    ++ s.windowRoots.toList.map (fun (w, roots) => w ++ " roots: " ++ ", ".intercalate roots)
    ++ s.optionsMenus.toList.map (fun (a, menu) => a ++ " options menu: " ++ menu)
    ++ s.contextMenus.toList.map (fun (menu, views) => menu ++ " registered views: " ++ ", ".intercalate views)
    ++ s.dialogs.toList.map (fun (d, record) => record.line d)
    ++ [s.statistics.line]

def text (s : Summary) : String := "\n".intercalate s.lines

end Summary

namespace Solver

/-- The outlines of the root views of all windows, each window before its roots. -/
def outlines (s : Solver) : List String :=
  s.roots.toList.flatMap fun (w, roots) => s.graph.describe w :: roots.toList.map s.graph.outline

end Solver

end WidgetFlow
