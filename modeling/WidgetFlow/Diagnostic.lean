import WidgetFlow.Code.Value

/-!
# Violations and remarks

A *violation* says that the application does something that the analysis cannot make sense of. A *remark* says that
something is missing, unclear or worth knowing. Nodes appear in both by their descriptions. All wording is here.
-/

namespace WidgetFlow

/-! ## Violations -/

inductive Violation where
  | tabLayoutMissing
  | unexpectedView (signature : String)
  | unexpectedListener (signature : String)
  | notGuiObject (view : Local)
  | notListener (listener : Local)
  | unexpectedDialogView (view : Value)
  | unexpectedTabSpec (signature : String)
  | unknownRegistration (op : String)
  | unexpectedFlow (value op : String)
  | ownParent (child : String)
  | containmentCycle (child parent : String)
  | other (text : String)
  deriving DecidableEq

def Violation.text : Violation → String
  | tabLayoutMissing => "Framework ids of the tab host layout are missing"
  | unexpectedView s => s!"Unexpected view argument in {s}"
  | unexpectedListener s => s!"Unexpected listener argument in {s}"
  | notGuiObject v => s!"Listener registered on non-GUI object {v.text}"
  | notListener l => s!"Registered object {l.text} is no listener"
  | unexpectedDialogView v => s!"Unexpected dialog view {v.text}"
  | unexpectedTabSpec s => s!"Unexpected tab spec argument in {s}"
  | unknownRegistration op => s!"Unknown listener registration {op}"
  | unexpectedFlow value op => s!"Unexpected flow of {value} into {op}"
  | ownParent child => s!"{child} cannot be its own parent"
  | containmentCycle child parent => s!"Adding {parent} as parent of {child} would create a containment cycle"
  | other text => text

/-- A violation that ends an analysis, and where it is. -/
structure Fault where
  violation : Violation
  location : Option Label
  deriving DecidableEq

def Fault.message (f : Fault) : String :=
  match f.location with
  | some l => s!"{f.violation.text} @ {l.text}"
  | none => f.violation.text

/-! ## Remarks -/

inductive Remark where
  | graphBuilt (nodes : Nat)
  | unknownReceiver (receiver : Local)
  | unknownViewId (id : Value)
  | unknownId (id : Value) (operation : String)
  | listIdMissing
  | layoutMissing (name : String)
  | widgetMissing (name : String)
  | noRootView (activity : String)
  | unknownDialogLayout (value : Int)
  | unresolvedDialogs
  | unknownItemLayout (adapter : String)
  | opaqueAdapter (adapter : String)
  | unknownTabSpec
  | unknownTabContent
  | intentContent
  | unexpectedViewParameter (parameter : Local) (signature : String)
  | unfitView (view signature : String)
  | layoutNotFound (layout : String)
  | menuNotFound (menu : String)
  | classlessView (layout : String)
  | inflatedViewMenu (view menu : String)
  | severalIds (kept : String)
  | fixpoint (passes classifications inflated : Nat)
  | other (text : String)
  deriving DecidableEq

def Remark.text : Remark → String
  | graphBuilt n => s!"Built graph with {n} nodes."
  | unknownReceiver l => s!"Receiver object unknown for {l.text}"
  | unknownViewId v => s!"Unknown view id {v.text} in findViewById"
  | unknownId v op => s!"Unknown id {v.text} for {op}"
  | listIdMissing => "Framework id of list views is missing"
  | layoutMissing name => s!"Framework layout {name} is missing"
  | widgetMissing name => s!"Framework widget id {name} is missing"
  | noRootView a => s!"Activity {a} has no root view"
  | unknownDialogLayout n => s!"Unknown layout {n} of dialog view"
  | unresolvedDialogs => "Cannot resolve dialogs of activity"
  | unknownItemLayout a => s!"Unknown item layout of adapter {a}"
  | opaqueAdapter a => s!"Cannot model the items of adapter {a}"
  | unknownTabSpec => "Unknown tab spec of addTab"
  | unknownTabContent => "Unknown tab content id"
  | intentContent => "Tab content started by an intent is not modeled"
  | unexpectedViewParameter l s => s!"Unexpected view parameter {l.text} of {s}"
  | unfitView v s => s!"{v} does not fit the view parameter of {s}"
  | layoutNotFound l => s!"Cannot find layout {l}"
  | menuNotFound m => s!"Cannot find menu {m}"
  | classlessView l => s!"Skipping layout node without class in {l}"
  | inflatedViewMenu v m => s!"Inflated view {v} has {m}"
  | severalIds k => s!"More than one id flows into setId, keeping {k}"
  | fixpoint p c i => s!"Fixpoint reached after {p} passes with {c} classifications and {i} inflated nodes."
  | other text => text

end WidgetFlow
