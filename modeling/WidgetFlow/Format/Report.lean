import WidgetFlow.Format.Graph
import WidgetFlow.Log
import WidgetFlow.Solution.Summary

/-!
# Results as JSON
-/

namespace WidgetFlow

open Std

/-! ## The log -/

namespace Log

namespace Level

def tag : Level → String
  | debug => "Debug" | error => "Error" | info => "Info"

def all : List Level := [debug, error, info]

end Level

namespace Entry

def toJson (e : Entry) : Json :=
  .obj [("text", .str e.text), ("level", .str e.level.tag), ("location", .opt Label.toJson e.location),
    ("source", .opt .str e.source)]

def ofJson? (j : Json) : Option Entry := do
  let r ← j.record? ["text", "level", "location", "source"]
  return {
    text := ← r.field? "text" Json.string?
    level := ← r.field? "level" (Json.choice? Level.all Level.tag)
    location := ← r.optional? "location" Label.ofJson?
    source := ← r.optional? "source" Json.string? }

end Entry

end Log

/-! ## Summaries -/

def DialogRecord.toJson (r : DialogRecord) : Json :=
  .obj [("shows", .list Label.toJson r.shows.toList), ("dismisses", .list Label.toJson r.dismisses.toList),
    ("lifecycle_handlers", .strs r.lifecycle.toList), ("other_handlers", .strs r.others.toList)]

def Statistics.toJson (t : Statistics) : Json :=
  .obj [("propagation_passes", .nat t.passes), ("classifications", .nat t.classifications),
    ("inflated_nodes", .nat t.inflated)]

def OperationSolution.toJson (o : OperationSolution) : Json :=
  .obj [("operation", .str o.operation), ("kind", .str o.kind.text), ("artificial", .bool o.artificial),
    ("location", .opt Label.toJson o.location), ("ids", .strs o.ids), ("receivers", .strs o.receivers),
    ("parameters", .strs o.parameters), ("results", .strs o.results), ("listeners", .strs o.listeners),
    ("event", .opt (.str ·.text) o.event), ("handlers", .strs o.handlers)]

def Summary.toJson (s : Summary) : Json :=
  .obj [("operations", .list OperationSolution.toJson s.operations),
    ("window_roots", .obj (s.windowRoots.toList.map fun (k, v) => (k, .strs v))),
    ("options_menus", .obj (s.optionsMenus.toList.map fun (k, v) => (k, .str v))),
    ("context_menus", .obj (s.contextMenus.toList.map fun (k, v) => (k, .strs v))),
    ("dialogs", .obj (s.dialogs.toList.map fun (k, v) => (k, v.toJson))), ("statistics", s.statistics.toJson)]

end WidgetFlow
