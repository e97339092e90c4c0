import WidgetFlow.Code.Hierarchy

/-!
# Settings of the analysis

Which calls register a listener, which methods of a listener the framework then runs, and which methods of an activity
the framework runs by itself.
-/

namespace WidgetFlow

open Std

/-- The events of the user interface. -/
inductive EventKind where
  | click | longClick | select | scroll | touch | focusChange | pressKey | enterText | editorAction
  | itemClick | itemLongClick | itemSelected
  | dialogCancel | dialogDismiss | dialogPressKey | dialogShow | dialogClick
  | implicitCreateContextMenu
  deriving DecidableEq

namespace EventKind

def text : EventKind → String
  | click => "click" | longClick => "long_click" | select => "select" | scroll => "scroll" | touch => "touch"
  | focusChange => "focus_change" | pressKey => "press_key" | enterText => "enter_text"
  | editorAction => "editor_action" | itemClick => "item_click" | itemLongClick => "item_long_click"
  | itemSelected => "item_selected" | dialogCancel => "dialog_cancel" | dialogDismiss => "dialog_dismiss"
  | dialogPressKey => "dialog_press_key" | dialogShow => "dialog_show" | dialogClick => "dialog_click"
  | implicitCreateContextMenu => "implicit_create_context_menu"

def all : List EventKind :=
  [click, longClick, select, scroll, touch, focusChange, pressKey, enterText, editorAction, itemClick,
    itemLongClick, itemSelected, dialogCancel, dialogDismiss, dialogPressKey, dialogShow, dialogClick,
    implicitCreateContextMenu]

end EventKind

/-- A method of a listener, and the parameter that receives the view of the event. -/
structure HandlerSpec where
  subSignature : String
  viewPosition : Option Nat
  deriving DecidableEq

/-- A method that registers a listener on objects of `guiType`. -/
structure ListenerSpec where
  guiType : String
  event : EventKind
  registration : String
  position : Nat
  listenerType : String
  handlers : List HandlerSpec
  deriving DecidableEq

structure Settings where
  strict : Bool
  apiLevel : Nat
  activityCallbacks : List String
  listeners : List ListenerSpec
  deriving DecidableEq

namespace Settings

/-- The listener of context menus. An activity is one for the views that it registers. -/
def contextMenuListener : String := "android.view.View$OnCreateContextMenuListener"

variable (s : Settings) (p : Program)

/-- The first registration with this sub-signature on a supertype of the receiver's class. -/
def registration? (receiver sub : String) : Option Nat :=
  let types := p.supertypes receiver
  s.listeners.findIdx? fun spec => spec.registration == sub && types.contains spec.guiType

/-- The listener interfaces of all registrations. -/
def listenerTypes : ExtTreeSet String :=
  .ofList (s.listeners.map (·.listenerType) ++ [contextMenuListener])

def isListener (cls : String) : Bool :=
  let types := s.listenerTypes
  (p.lineage cls).any types.contains

/-- The position of the view, or of the menu item, among the parameters of a handler. -/
def viewPosition? (sub : String) : Option Nat :=
  if sub == "boolean onOptionsItemSelected(android.view.MenuItem)"
      || sub == "boolean onContextItemSelected(android.view.MenuItem)" then
    some 0
  else
    ((s.listeners.flatMap (·.handlers)).find? (·.subSignature == sub)).bind (·.viewPosition)

end Settings

end WidgetFlow
