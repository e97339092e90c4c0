import WidgetFlow.Format.Resources
import WidgetFlow.Graph.Node

/-!
# Nodes as JSON
-/

namespace WidgetFlow

open Std

/-- The number of a node. -/
def nodeIdOfJson? : Json → Option NodeId := Json.nat32?

def NodeSet.toJson (s : NodeSet) : Json := .nats s.toList

def nodeSetOfJson? (j : Json) : Option NodeSet := do
  return .ofList (← j.list? nodeIdOfJson?)

/-! ## Origins -/

namespace CallSite

def originToJson : Origin → Json
  | .program => .str "Program"
  | .synthetic s => .tagged "Synthetic" (.str s.text)

def originOfJson? (j : Json) : Option Origin := do
  match ← j.variant? with
  | ("Program", none) | ("Program", some .null) => some .program
  | ("Synthetic", some d) => (Json.choice? Synthesis.all Synthesis.text d).map .synthetic
  | _ => none

def toJson (c : CallSite) : Json :=
  .obj [("origin", originToJson c.origin), ("stmt", .opt Label.toJson c.stmt), ("method", .opt .str c.method)]

def ofJson? (j : Json) : Option CallSite := do
  let r ← j.record? ["origin", "stmt", "method"]
  return {
    origin := ← r.field? "origin" originOfJson?
    stmt := ← r.optional? "stmt" Label.ofJson?
    method := ← r.optional? "method" Json.string? }

end CallSite

/-! ## Objects -/

namespace Obj

/-- An object of a class that a statement makes. -/
def madeToJson (tag cls : String) (site : Json) : Json :=
  .tagged tag (.obj [("class", .str cls), ("alloc_site", site)])

def toJson : Obj → Json
  | activity cls => .tagged "Activity" (.obj [("class", .str cls)])
  | dialog cls site cancelable =>
    .tagged "Dialog"
      (.obj [("class", .str cls), ("alloc_site", .opt Label.toJson site), ("cancelable", .bool cancelable)])
  | optionsMenu a => .tagged "OptionsMenu" (.obj [("activity", .str a)])
  | contextMenu handler parameter views =>
    .tagged "ContextMenu"
      (.obj [("handler", .str handler), ("menu_parameter", .nat parameter), ("registered_views", views.toJson)])
  | tabSpec cls site => madeToJson "TabSpec" cls site.toJson
  | inflated cls => .tagged "Inflated" (.obj [("class", .str cls)])
  | menuItem cls attributes =>
    .tagged "MenuItem"
      (.obj [("class", .str cls), ("attributes", .obj (attributes.toList.map fun (k, v) => (k, .str v)))])
  | alloc cls site => madeToJson "Alloc" cls site.toJson
  | listenerAlloc cls site => madeToJson "ListenerAlloc" cls site.toJson
  | viewAlloc cls site => madeToJson "ViewAlloc" cls site.toJson
  | string s => .tagged "StringConstant" (.str s)
  | syntheticListener interface origin =>
    .tagged "SyntheticListener" (.obj [("interface", .str interface), ("origin", .str origin.text)])

def ofClass? (make : String → Obj) (name : String) (j : Json) : Option Obj := do
  let r ← j.record? [name]
  return make (← r.field? name Json.string?)

def ofSite? (make : String → Label → Obj) (j : Json) : Option Obj := do
  let r ← j.record? ["class", "alloc_site"]
  return make (← r.field? "class" Json.string?) (← r.field? "alloc_site" Label.ofJson?)

def dialogOfJson? (j : Json) : Option Obj := do
  let r ← j.record? ["class", "alloc_site", "cancelable"]
  return .dialog (← r.field? "class" Json.string?) (← r.optional? "alloc_site" Label.ofJson?)
    (← r.field? "cancelable" Json.bool?)

def contextMenuOfJson? (j : Json) : Option Obj := do
  let r ← j.record? ["handler", "menu_parameter", "registered_views"]
  return .contextMenu (← r.field? "handler" Json.string?) (← r.field? "menu_parameter" nodeIdOfJson?)
    (← r.field? "registered_views" nodeSetOfJson?)

def menuItemOfJson? (j : Json) : Option Obj := do
  let r ← j.record? ["class", "attributes"]
  return .menuItem (← r.field? "class" Json.string?)
    (.ofList (← r.field? "attributes" (Json.dict? Json.Spelling.text? Json.string?)))

def syntheticListenerOfJson? (j : Json) : Option Obj := do
  let r ← j.record? ["interface", "origin"]
  return .syntheticListener (← r.field? "interface" Json.string?)
    (← r.field? "origin" (Json.choice? Synthesis.all Synthesis.text))

def ofJson? (j : Json) : Option Obj := do
  match ← j.variant? with
  | ("Activity", some d) => ofClass? activity "class" d
  | ("Dialog", some d) => dialogOfJson? d
  | ("OptionsMenu", some d) => ofClass? optionsMenu "activity" d
  | ("ContextMenu", some d) => contextMenuOfJson? d
  | ("TabSpec", some d) => ofSite? tabSpec d
  | ("Inflated", some d) => ofClass? inflated "class" d
  | ("MenuItem", some d) => menuItemOfJson? d
  | ("Alloc", some d) => ofSite? alloc d
  | ("ListenerAlloc", some d) => ofSite? listenerAlloc d
  | ("ViewAlloc", some d) => ofSite? viewAlloc d
  | ("StringConstant", some d) => d.string?.map string
  | ("SyntheticListener", some d) => syntheticListenerOfJson? d
  | _ => none

end Obj

/-! ## Pointers and ids -/

namespace Pointer

def toJson : Pointer → Json
  | var l => .tagged "Var" l.toJson
  | field f => .tagged "Field" f.toJson

def ofJson? (j : Json) : Option Pointer := do
  match ← j.variant? with
  | ("Var", some d) => (Local.ofJson? d).map var
  | ("Field", some d) => (Field.ofJson? d).map field
  | _ => none

end Pointer

namespace ResourceId

def toJson (i : ResourceId) : Json :=
  .obj [("category", .str i.space.tag), ("value", .int i.value), ("name", .opt .str i.name)]

def ofJson? (j : Json) : Option ResourceId := do
  let r ← j.record? ["category", "value", "name"]
  return ⟨← r.field? "category" IdSpace.ofJson?, ← r.field? "value" Json.int64?,
    ← r.optional? "name" Json.string?⟩

end ResourceId

/-! ## Operations -/

namespace FindQuery

def text : FindQuery → String
  | ordinary => "Ordinary" | menuItem => "MenuFindItem"

def all : List FindQuery := [ordinary, menuItem]

end FindQuery

namespace Navigation

def text : Navigation → String
  | descendantsAndSelf => "DescendantsAndSelf" | children => "Children" | descendantsNoSelf => "DescendantsNoSelf"

def all : List Navigation := [descendantsAndSelf, children, descendantsNoSelf]

end Navigation

namespace OpKind

/-- The operations without a variant. -/
def plain : List OpKind :=
  [inflate, setContent, findInWindow, setRoot, addChild, setId, setText, setImage, inflateMenu]

def toJson : OpKind → Json
  | findView q => .tagged "FindView1" (.str q.text)
  | navigate n => .tagged "FindView3" (.str n.text)
  | setListener b => .tagged "SetListener" (.obj [("context_menu", .bool b)])
  | kind => .str kind.tag.text

def setListenerOfJson? (j : Json) : Option OpKind := do
  let r ← j.record? ["context_menu"]
  return .setListener (← r.field? "context_menu" Json.bool?)

def ofJson? (j : Json) : Option OpKind := do
  match ← j.variant? with
  | ("FindView1", some d) => (Json.choice? FindQuery.all FindQuery.text d).map findView
  | ("FindView3", some d) => (Json.choice? Navigation.all Navigation.text d).map navigate
  | ("SetListener", some d) => setListenerOfJson? d
  | _ => Json.choice? plain (·.tag.text) j

end OpKind

def OpTag.ofJson? : Json → Option OpTag := Json.choice? OpTag.all OpTag.text

namespace Op

def toJson (o : Op) : Json :=
  .obj [("kind", o.kind.toJson), ("call_site", o.site.toJson), ("artificial", .bool o.artificial),
    ("receiver", .opt .nat o.receiver), ("parameter", .opt .nat o.parameter), ("result", .opt .nat o.result)]

def ofJson? (j : Json) : Option Op := do
  let r ← j.record? ["kind", "call_site", "artificial", "receiver", "parameter", "result"]
  return {
    kind := ← r.field? "kind" OpKind.ofJson?
    site := ← r.field? "call_site" CallSite.ofJson?
    artificial := ← r.field? "artificial" Json.bool?
    receiver := ← r.optional? "receiver" nodeIdOfJson?
    parameter := ← r.optional? "parameter" nodeIdOfJson?
    result := ← r.optional? "result" nodeIdOfJson? }

end Op

/-! ## Nodes -/

namespace NodeKind

def toJson : NodeKind → Json
  | object o => .tagged "Object" o.toJson
  | pointer p => .tagged "Pointer" p.toJson
  | id i => .tagged "Id" i.toJson
  | op o => .tagged "Op" o.toJson

def ofJson? (j : Json) : Option NodeKind := do
  match ← j.variant? with
  | ("Object", some d) => (Obj.ofJson? d).map object
  | ("Pointer", some d) => (Pointer.ofJson? d).map pointer
  | ("Id", some d) => (ResourceId.ofJson? d).map id
  | ("Op", some d) => (Op.ofJson? d).map op
  | _ => none

end NodeKind

def Node.toJson (n : Node) : Json :=
  .obj [("kind", n.kind.toJson), ("id_node", .opt .nat n.id), ("text_nodes", n.texts.toJson),
    ("drawable_nodes", n.drawables.toJson)]

end WidgetFlow
