import WidgetFlow.Code.Program
import WidgetFlow.Resources
import Std.Data.ExtTreeSet

/-!
# The nodes of the graph

A node is an object that exists when the application runs, a pointer (a local or a field), a resource id, or an
operation on the user interface.
-/

namespace WidgetFlow

open Std

/-- Nodes are numbered in the order of their creation. -/
abbrev NodeId := Nat

/-- A finite set of nodes. Two sets with the same elements are equal. -/
abbrev NodeSet := ExtTreeSet NodeId

/-! ## Origins -/

/-- What the framework does without a call in the application. -/
inductive Synthesis where
  | outsideRootAttach | menuItemAdd | menuItemSelection | defaultListLayout | listItemClick | adapterItem
  | dialogContent | dialogCustomView | dialogButton | dialogListener
  | tabHostContent | tabIndicator | tabContent
  deriving DecidableEq

def Synthesis.text : Synthesis → String
  | outsideRootAttach => "OutsideRootAttach" | menuItemAdd => "MenuItemAdd"
  | menuItemSelection => "MenuItemSelection" | defaultListLayout => "DefaultListLayout"
  | listItemClick => "ListItemClick" | adapterItem => "AdapterItem" | dialogContent => "DialogContent"
  | dialogCustomView => "DialogCustomView" | dialogButton => "DialogButton" | dialogListener => "DialogListener"
  | tabHostContent => "TabHostContent" | tabIndicator => "TabIndicator" | tabContent => "TabContent"

def Synthesis.all : List Synthesis :=
  [outsideRootAttach, menuItemAdd, menuItemSelection, defaultListLayout, listItemClick, adapterItem, dialogContent,
    dialogCustomView, dialogButton, dialogListener, tabHostContent, tabIndicator, tabContent]

/-- Where an operation comes from: a call of the application or the framework by itself. -/
inductive Origin where
  | program
  | synthetic (s : Synthesis)
  deriving DecidableEq

/-- The statement of an operation, or the one that sets it off, and the method around it. -/
structure CallSite where
  origin : Origin
  stmt : Option Label
  method : Option String
  deriving DecidableEq

/-- The site of an operation of the framework. -/
def CallSite.synthetic (s : Synthesis) (stmt : Option Label) : CallSite :=
  ⟨.synthetic s, stmt, stmt.map (·.location)⟩

/-! ## Objects -/

inductive Obj where
  /-- The one object of an activity class. -/
  | activity (cls : String)
  | dialog (cls : String) (site : Option Label) (cancelable : Bool)
  | optionsMenu (activity : String)
  /-- The menu that a handler fills, the pointer of its menu parameter, and the pointers of the views that show it. -/
  | contextMenu (handler : String) (parameter : NodeId) (views : NodeSet)
  | tabSpec (cls : String) (site : Label)
  /-- A widget made from a layout. -/
  | inflated (cls : String)
  | menuItem (cls : String) (attributes : ExtTreeMap String String)
  | alloc (cls : String) (site : Label)
  | listenerAlloc (cls : String) (site : Label)
  | viewAlloc (cls : String) (site : Label)
  | string (s : String)
  /-- A listener inside the framework. -/
  | syntheticListener (interface : String) (origin : Synthesis)
  deriving DecidableEq

namespace Obj

/-- The class of an object. -/
def cls : Obj → String
  | activity c | dialog c _ _ | tabSpec c _ | inflated c | menuItem c _ | alloc c _ | listenerAlloc c _
  | viewAlloc c _ => c
  | optionsMenu _ => "android.view.Menu"
  | contextMenu _ _ _ => "android.view.ContextMenu"
  | string _ => "java.lang.String"
  | syntheticListener i _ => i

/-- Widgets and menu items can be inside others. -/
def isWidget : Obj → Bool
  | inflated _ | menuItem _ _ | viewAlloc _ _ => true
  | _ => false

/-- Windows have root views. -/
def isWindow : Obj → Bool
  | activity _ | dialog _ _ _ => true
  | _ => false

def isMenu : Obj → Bool
  | optionsMenu _ | contextMenu _ _ _ => true
  | _ => false

def isActivity : Obj → Bool
  | activity _ => true
  | _ => false

def isDialog : Obj → Bool
  | dialog _ _ _ => true
  | _ => false

def isContextMenu : Obj → Bool
  | contextMenu _ _ _ => true
  | _ => false

def isTabSpec : Obj → Bool
  | tabSpec _ _ => true
  | _ => false

end Obj

/-! ## Pointers and ids -/

inductive Pointer where
  | var (l : Local)
  | field (f : Field)
  deriving DecidableEq

def Pointer.ty : Pointer → Ty
  | var l => l.ty
  | field f => f.ty

/-- A number in an id space, with its name if it has one. -/
structure ResourceId where
  space : IdSpace
  value : Int
  name : Option String
  deriving DecidableEq

/-! ## Operations -/

/-- Look-up by id below a view, or among the items of a menu, where an unknown id means every item. -/
inductive FindQuery where
  | ordinary | menuItem
  deriving DecidableEq

/-- Look-up without an id. -/
inductive Navigation where
  | descendantsAndSelf | children | descendantsNoSelf
  deriving DecidableEq

/-- The operations on the user interface. -/
inductive OpKind where
  /-- Make the widgets of a layout and return the topmost. -/
  | inflate
  /-- Make the widgets of a layout and put them into a window. -/
  | setContent
  | findView (q : FindQuery)
  | findInWindow
  | navigate (n : Navigation)
  /-- Put a view into a window. -/
  | setRoot
  /-- Put a view into a view, or an item into a menu. -/
  | addChild
  | setId
  | setText
  | setImage
  | setListener (contextMenu : Bool)
  /-- Make the items of a menu resource and put them into a menu. -/
  | inflateMenu
  deriving DecidableEq

/-- The kind of an operation without its variant. -/
inductive OpTag where
  | inflate | setContent | findView | findInWindow | navigate | setRoot | addChild | setId | setText | setImage
  | setListener | inflateMenu
  deriving DecidableEq

def OpKind.tag : OpKind → OpTag
  | inflate => .inflate | setContent => .setContent | findView _ => .findView | findInWindow => .findInWindow
  | navigate _ => .navigate | setRoot => .setRoot | addChild => .addChild | setId => .setId | setText => .setText
  | setImage => .setImage | setListener _ => .setListener | inflateMenu => .inflateMenu

namespace OpTag

def text : OpTag → String
  | inflate => "Inflate1" | setContent => "Inflate2" | findView => "FindView1" | findInWindow => "FindView2"
  | navigate => "FindView3" | setRoot => "AddView1" | addChild => "AddView2" | setId => "SetId"
  | setText => "SetText" | setImage => "SetImageResource" | setListener => "SetListener"
  | inflateMenu => "MenuInflate"

def all : List OpTag :=
  [inflate, setContent, findView, findInWindow, navigate, setRoot, addChild, setId, setText, setImage, setListener,
    inflateMenu]

end OpTag

/-- An operation and its operands. Receiver and parameter flow into the operation, which flows into its result. -/
structure Op where
  kind : OpKind
  site : CallSite
  artificial : Bool
  receiver : Option NodeId
  parameter : Option NodeId
  result : Option NodeId
  deriving DecidableEq

namespace Op

/-- The parameter is meant to be a layout id. -/
def takesLayout (o : Op) : Bool :=
  match o.kind with
  | .inflate | .setContent | .setId => true
  | _ => false

/-- The parameter is meant to be a menu id. -/
def takesMenu (o : Op) : Bool :=
  match o.kind with
  | .inflateMenu => true
  | _ => false

end Op

/-! ## Nodes -/

inductive NodeKind where
  | object (o : Obj)
  | pointer (p : Pointer)
  | id (i : ResourceId)
  | op (o : Op)
  deriving DecidableEq

namespace NodeKind

def object? : NodeKind → Option Obj
  | object o => some o
  | _ => none

def pointer? : NodeKind → Option Pointer
  | pointer p => some p
  | _ => none

def id? : NodeKind → Option ResourceId
  | id i => some i
  | _ => none

def op? : NodeKind → Option Op
  | op o => some o
  | _ => none

end NodeKind

/-- A node: what it is, the id bound to it, and what its text and its image can be. -/
structure Node where
  kind : NodeKind
  id : Option NodeId := none
  texts : NodeSet := ∅
  drawables : NodeSet := ∅
  deriving DecidableEq

end WidgetFlow
