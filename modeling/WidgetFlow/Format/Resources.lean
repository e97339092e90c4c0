import WidgetFlow.Format.Code
import WidgetFlow.Project

/-!
# Resources and projects as JSON
-/

namespace WidgetFlow

open Std

namespace IdSpace

def tag : IdSpace → String
  | layout => "Layout" | menu => "Menu" | widget => "Widget" | string => "String" | drawable => "Drawable"
  | anonymous => "Anonymous"

def all : List IdSpace := known ++ [anonymous]

def ofJson? : Json → Option IdSpace := Json.choice? all tag

end IdSpace

/-! ## Templates -/

namespace Template

mutual

def toJson : Template → Json
  | ⟨cls, id, text, attributes, children⟩ =>
    .obj [("class", .opt .str cls), ("id", .opt .int id), ("text", .opt .str text),
      ("attributes", .obj (attributes.toList.map fun (k, v) => (k, .str v))), ("children", .arr (listToJson children))]

def listToJson : List Template → List Json
  | [] => []
  | t :: ts => toJson t :: listToJson ts

end

/-- A template without its children. -/
def withoutChildrenOfJson? (j : Json) : Option Template := do
  let r ← j.record? ["class", "id", "text", "attributes", "children"] 4
  return {
    cls := ← r.optional? "class" Json.string?
    id := ← r.optional? "id" Json.int64?
    text := ← r.optional? "text" Json.string?
    attributes := .ofList (← r.defaulted? "attributes" [] (Json.dict? Json.Spelling.text? Json.string?))
    children := [] }

mutual

def ofJson? : Json → Option Template
  | .object members => do
    let t ← withoutChildrenOfJson? (.object members)
    let children ← childrenOf? members
    return { t with children }
  | .arr items => do
    let t ← withoutChildrenOfJson? (.arr items)
    let children ← childrenAt? 4 items
    return { t with children }
  | _ => none

/-- The member with the children. -/
def childrenOf? : List (String × Json) → Option (List Template)
  | [] => some []
  | (spelling, j) :: members =>
    if Json.Spelling.text? spelling = some "children" then listOfJson? j else childrenOf? members

/-- The item with the children. -/
def childrenAt? : Nat → List Json → Option (List Template)
  | _, [] => some []
  | 0, j :: _ => listOfJson? j
  | n + 1, _ :: items => childrenAt? n items

def listOfJson? : Json → Option (List Template)
  | .arr items => itemsOfJson? items
  | _ => none

def itemsOfJson? : List Json → Option (List Template)
  | [] => some []
  | j :: js => do
    let t ← ofJson? j
    let ts ← itemsOfJson? js
    return t :: ts

end

end Template

/-! ## Resources -/

namespace Resources

/-- A dictionary by ids. -/
def byIdToJson {α : Type} (f : α → Json) (m : ExtTreeMap Int α) : Json :=
  .obj (m.toList.map fun (k, a) => (toString k, f a))

/-- A dictionary by names. -/
def byNameToJson (m : ExtTreeMap String Int) : Json :=
  .obj (m.toList.map fun (k, n) => (k, .int n))

def toJson (r : Resources) : Json :=
  .obj [("layouts", byIdToJson Template.toJson r.layouts), ("menus", byIdToJson Template.toJson r.menus),
    ("layout_ids", byIdToJson .str r.layoutIds), ("menu_ids", byIdToJson .str r.menuIds),
    ("widget_ids", byIdToJson .str r.widgetIds), ("string_ids", byIdToJson .str r.stringIds),
    ("drawable_ids", byIdToJson .str r.drawableIds), ("system_layout_ids", byNameToJson r.systemLayouts),
    ("system_widget_ids", byNameToJson r.systemWidgets)]

def byIdOfJson? {α : Type} (r : Json.Record) (name : String) (d : Json → Option α) : Option (ExtTreeMap Int α) := do
  return .ofList (← r.defaulted? name [] (Json.dict? Json.Spelling.integerName? d))

def byNameOfJson? (r : Json.Record) (name : String) : Option (ExtTreeMap String Int) := do
  return .ofList (← r.defaulted? name [] (Json.dict? Json.Spelling.text? Json.int64?))

def ofJson? (j : Json) : Option Resources := do
  let r ← j.record? ["layouts", "menus", "layout_ids", "menu_ids", "widget_ids", "string_ids", "drawable_ids",
    "system_layout_ids", "system_widget_ids"] 9
  return {
    layouts := ← byIdOfJson? r "layouts" Template.ofJson?
    menus := ← byIdOfJson? r "menus" Template.ofJson?
    layoutIds := ← byIdOfJson? r "layout_ids" Json.string?
    menuIds := ← byIdOfJson? r "menu_ids" Json.string?
    widgetIds := ← byIdOfJson? r "widget_ids" Json.string?
    stringIds := ← byIdOfJson? r "string_ids" Json.string?
    drawableIds := ← byIdOfJson? r "drawable_ids" Json.string?
    systemLayouts := ← byNameOfJson? r "system_layout_ids"
    systemWidgets := ← byNameOfJson? r "system_widget_ids" }

end Resources

/-! ## Projects -/

namespace Project

def toJson (p : Project) : Json := .obj [("program", p.program.toJson), ("resources", p.resources.toJson)]

def ofJson? (j : Json) : Option Project := do
  let r ← j.record? ["program", "resources"] 1
  return ⟨← r.field? "program" Program.ofJson?, ← r.defaulted? "resources" {} Resources.ofJson?⟩

end Project

end WidgetFlow
