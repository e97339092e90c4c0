import WidgetFlow.Json.Decode
import WidgetFlow.Settings

/-!
# Settings as JSON
-/

namespace WidgetFlow

namespace HandlerSpec

def toJson (h : HandlerSpec) : Json :=
  .obj [("sub_signature", .str h.subSignature), ("view_position", .opt .nat h.viewPosition)]

def ofJson? (j : Json) : Option HandlerSpec := do
  let r ← j.record? ["sub_signature", "view_position"] 1
  return ⟨← r.field? "sub_signature" Json.string?, ← r.optional? "view_position" Json.nat64?⟩

end HandlerSpec

namespace ListenerSpec

def toJson (l : ListenerSpec) : Json :=
  .obj [("gui_type", .str l.guiType), ("event", .str l.event.text), ("registration", .str l.registration),
    ("position", .nat l.position), ("listener_type", .str l.listenerType),
    ("handlers", .list HandlerSpec.toJson l.handlers)]

def ofJson? (j : Json) : Option ListenerSpec := do
  let r ← j.record? ["gui_type", "event", "registration", "position", "listener_type", "handlers"]
  return {
    guiType := ← r.field? "gui_type" Json.string?
    event := ← r.field? "event" (Json.choice? EventKind.all EventKind.text)
    registration := ← r.field? "registration" Json.string?
    position := ← r.field? "position" Json.nat64?
    listenerType := ← r.field? "listener_type" Json.string?
    handlers := ← r.field? "handlers" (Json.list? HandlerSpec.ofJson?) }

end ListenerSpec

namespace Settings

def toJson (s : Settings) : Json :=
  .obj [("strict", .bool s.strict), ("api_level", .nat s.apiLevel),
    ("activity_callbacks", .strs s.activityCallbacks), ("listeners", .list ListenerSpec.toJson s.listeners)]

def ofJson? (j : Json) : Option Settings := do
  let r ← j.record? ["strict", "api_level", "activity_callbacks", "listeners"]
  return {
    strict := ← r.field? "strict" Json.bool?
    apiLevel := ← r.field? "api_level" Json.nat32?
    activityCallbacks := ← r.field? "activity_callbacks" (Json.list? Json.string?)
    listeners := ← r.field? "listeners" (Json.list? ListenerSpec.ofJson?) }

end Settings

end WidgetFlow
