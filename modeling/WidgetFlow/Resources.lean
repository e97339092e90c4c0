import Std.Data.ExtTreeMap

/-!
# Layouts, menus and ids

A layout or a menu is a tree of templates, from which widgets or menu items are made. Ids are numbers in one of several
spaces; the framework's own ids are also known by name.
-/

namespace WidgetFlow

open Std

/-- A node of a layout or menu. A node without a class makes no widget. -/
structure Template where
  cls : Option String
  id : Option Int
  text : Option String
  attributes : ExtTreeMap String String
  children : List Template

/-! ## Id spaces -/

/-- The kinds of ids. Anonymous ids belong to no known space. -/
inductive IdSpace where
  | layout | menu | widget | string | drawable | anonymous
  deriving DecidableEq

namespace IdSpace

def text : IdSpace → String
  | layout => "LID" | menu => "MID" | widget => "WID" | string => "SID" | drawable => "DID" | anonymous => "AID"

/-- The spaces in which a number is looked up, in this order. -/
def known : List IdSpace := [layout, menu, widget, string, drawable]

end IdSpace

/-! ## Resources -/

/-- The layouts, the menus and the ids of an application and of the framework. -/
structure Resources where
  layouts : ExtTreeMap Int Template := ∅
  menus : ExtTreeMap Int Template := ∅
  layoutIds : ExtTreeMap Int String := ∅
  menuIds : ExtTreeMap Int String := ∅
  widgetIds : ExtTreeMap Int String := ∅
  stringIds : ExtTreeMap Int String := ∅
  drawableIds : ExtTreeMap Int String := ∅
  systemLayouts : ExtTreeMap String Int := ∅
  systemWidgets : ExtTreeMap String Int := ∅

namespace Resources

variable (r : Resources)

/-- The names of the ids in a space; anonymous ids have none. -/
def ids? : IdSpace → Option (ExtTreeMap Int String)
  | .layout => some r.layoutIds
  | .menu => some r.menuIds
  | .widget => some r.widgetIds
  | .string => some r.stringIds
  | .drawable => some r.drawableIds
  | .anonymous => none

def idName? (space : IdSpace) (value : Int) : Option String :=
  (r.ids? space).bind (·[value]?)

/-- The first space that knows the number. -/
def classify? (value : Int) : Option IdSpace :=
  IdSpace.known.find? fun space => (r.ids? space).any (·.contains value)

/-- The space of a widget id: anonymous unless the number is a known widget id. -/
def widgetSpace (value : Int) : IdSpace :=
  if value ∈ r.widgetIds then .widget else .anonymous

end Resources

end WidgetFlow
