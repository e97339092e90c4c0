import WidgetFlow.Diagnostic
import WidgetFlow.Graph.Containment
import WidgetFlow.Graph.Reach
import WidgetFlow.Log
import WidgetFlow.Project
import WidgetFlow.Settings

/-!
# Flowgraphs

A flowgraph is the graph of an application together with what has to be remembered about it: the menus, the dialogs,
the listeners, the calls that wait for the rest of the code, and the layouts that were inflated.

* `Edit`: changes of a flowgraph;
* `Build`: changes of a flowgraph that a violation can end, which keeps what was changed before.
-/

namespace WidgetFlow

open Std

/-! ## Sites and deferred calls -/

/-- A statement and the method around it. -/
structure Site where
  method : Method
  instr : Instr
  deriving DecidableEq

namespace Site

variable (s : Site)

def label : Label := s.instr.label

def call? : Option Call := s.instr.stmt.call?

def receiver? : Option Local := s.call?.bind (·.receiver)

/-- The local that receives the result of the call. -/
def result? : Option Local := s.instr.stmt.result?

/-- The site of an operation that is this call. -/
def callSite : CallSite := ⟨.program, some s.label, some s.method.signature⟩

/-- The site of an operation of the framework that this statement sets off. -/
def synthetic (y : Synthesis) : CallSite := .synthetic y (some s.label)

/-- The array that the statement writes or reads. -/
def array? : Option Local :=
  match s.instr.stmt with
  | .assign (.arrayWrite base _) _ => some base
  | .assign _ (.arrayRead base _) => some base
  | _ => none

end Site

/-- The statements that are dealt with after all others. -/
inductive Role where
  | arrayWrite | arrayRead
  | setAdapter | getView | newAdapter
  | dialogSet | dialogShow | dialogDismiss | builderSet | builderCreate | activityShow | activityDismiss
  | addTab | tabIndicator | tabContent
  deriving DecidableEq

structure Deferred where
  role : Role
  site : Site

/-! ## What is remembered -/

/-- What is known of a dialog: where it is shown and dismissed, and the methods that run for it. -/
structure DialogRecord where
  shows : ExtTreeSet Label := ∅
  dismisses : ExtTreeSet Label := ∅
  lifecycle : ExtTreeSet String := ∅
  others : ExtTreeSet String := ∅

/-- A registration of a context menu. Its handlers are bound when all statements are known. -/
structure MenuTask where
  op : NodeId
  view : Local
  listener : Local
  listenerType : String
  registration : Option Nat
  location : Label

/-- The registrations of listeners, by their operations. -/
structure Listeners where
  events : ExtTreeMap NodeId EventKind := ∅
  handlers : ExtTreeMap NodeId (ExtTreeSet String) := ∅
  /-- The position of the registration among the listeners of the settings. -/
  registrations : ExtTreeMap NodeId Nat := ∅
  /-- These registrations need no dispatch. -/
  modelled : NodeSet := ∅
  /-- The views and listeners that were dispatched. -/
  dispatched : List (NodeId × NodeId × NodeId) := []
  tasks : List MenuTask := []

/-- An inflation: the operation, the layout or menu id, and the window or menu that receives the widgets. -/
structure InflationKey where
  op : NodeId
  id : NodeId
  target : Option NodeId
  deriving DecidableEq

instance : Ord InflationKey :=
  ⟨compareLex (compareOn InflationKey.op) (compareLex (compareOn InflationKey.id) (compareOn InflationKey.target))⟩

instance : TransOrd InflationKey := inferInstanceAs (TransCmp (compareLex _ _))

instance : LawfulEqOrd InflationKey where
  eq_of_compare {a b} h := by
    obtain ⟨h₁, h⟩ := compareLex_eq_eq.mp h
    obtain ⟨h₂, h₃⟩ := compareLex_eq_eq.mp h
    have h₁ : a.op = b.op := LawfulEqCmp.eq_of_compare h₁
    have h₂ : a.id = b.id := LawfulEqCmp.eq_of_compare h₂
    have h₃ : a.target = b.target := LawfulEqCmp.eq_of_compare h₃
    cases a; cases b; simp_all

structure Flowgraph where
  graph : Graph := {}
  log : List Log.Entry := []
  /-- The objects that statements make. -/
  allocs : ExtTreeMap Label NodeId := ∅
  /-- The number of locals that stand for values inside the framework. -/
  fresh : Nat := 0
  /-- The options menu of each activity. -/
  optionsMenus : ExtTreeMap String NodeId := ∅
  /-- The context menu of each menu parameter. -/
  contextMenus : ExtTreeMap NodeId NodeId := ∅
  /-- For each activity and each method that fills a menu, the methods that receive the selected item. -/
  itemHandlers : ExtTreeMap String (ExtTreeMap String (ExtTreeSet String)) := ∅
  /-- The menu of each method that receives a selected item of a context menu. -/
  itemMenus : ExtTreeMap String NodeId := ∅
  /-- Arrays that are not arrays of arrays. -/
  arrays : NodeSet := ∅
  deferred : List Deferred := []
  listeners : Listeners := {}
  dialogs : ExtTreeMap NodeId DialogRecord := ∅
  /-- The pointer that holds nothing but a dialog. -/
  dialogVars : ExtTreeMap NodeId NodeId := ∅
  /-- The dialogs that have their content. -/
  filledDialogs : NodeSet := ∅
  /-- The layouts of the items of an adapter. -/
  itemLayouts : ExtTreeMap NodeId NodeSet := ∅
  inflations : ExtTreeMap InflationKey (Option NodeId) := ∅

namespace Flowgraph

variable (f : Flowgraph)

/-- The nodes of activity classes. -/
def activities : ExtTreeMap String NodeId :=
  .ofList (f.graph.ids.filterMap fun n => match f.graph.object? n with
    | some (.activity cls) => some (cls, n)
    | _ => none)

/-- The deferred statements of a role, in the order of the code. -/
def sites (role : Role) : List Site :=
  (f.deferred.filter (·.role = role)).map (·.site)

/-- The deferred calls of a role by their receivers. -/
def sitesByReceiver (role : Role) : ExtTreeMap Local (List Site) :=
  (f.sites role).foldl
    (fun calls s => match s.receiver? with
      | some r => calls.alter r fun ss => some (ss.getD [] ++ [s])
      | none => calls)
    ∅

/-- The event of a registration. -/
def event? (op : NodeId) : Option EventKind := f.listeners.events[op]?

/-- The methods that run for a registration. -/
def handlers (op : NodeId) : ExtTreeSet String := f.listeners.handlers.getD op ∅

/-- The node of a local, if there is one. -/
def var? (l : Local) : Option NodeId :=
  f.graph.find? (· = .pointer (.var l))

end Flowgraph

/-! ## Changes -/

/-- What does not change: the application and the settings. -/
structure Context where
  project : Project
  settings : Settings

abbrev Edit := ReaderT Context (StateM Flowgraph)

abbrev Build := ExceptT Fault Edit

/-- Runs an action on each element and tells whether one of them reports a change. -/
def sweep {m : Type → Type} [Monad m] {α : Type} (act : α → m Bool) : List α → m Bool
  | [] => pure false
  | a :: as => do
    let here ← act a
    let rest ← sweep act as
    return here || rest

namespace Flowgraph

/-- The name under which the construction of flowgraphs writes to the log. -/
def logSource : String := "GUI Flowgraph"

def logEntry (level : Log.Level) (text : String) (location : Option Label) : Edit Unit :=
  modify fun f => { f with log := f.log ++ [{ text, level, location, source := some logSource }] }

def remark (r : Remark) (location : Option Label := none) : Edit Unit :=
  logEntry .debug r.text location

/-- A violation ends a strict analysis and is logged by others. -/
def report (v : Violation) (location : Option Label) : Build Unit := do
  if (← read).settings.strict then throw ⟨v, location⟩ else logEntry .error v.text location

def program : Edit Program := return (← read).project.program

def resources : Edit Resources := return (← read).project.resources

def getGraph : Edit Graph := return (← get).graph

/-- Adds a node. -/
def addNode (kind : NodeKind) : Edit NodeId :=
  modifyGet fun f => (f.graph.size, { f with graph := f.graph.push kind })

/-- Adds an edge, and tells whether it was not there before. -/
def addEdge (src dst : NodeId) (label : Option Label) : Edit Bool :=
  modifyGet fun f => (!f.graph.hasFlow src dst, { f with graph := f.graph.connect src dst label })

/-- Adds an operation and the edges of its operands. -/
def addOp (kind : OpKind) (site : CallSite) (receiver parameter result : Option NodeId) : Edit NodeId :=
  let op : Op := { kind, site, artificial := site.origin != .program, receiver, parameter, result }
  modifyGet fun f => (f.graph.size, { f with graph := f.graph.pushOp op })

/-- Changes a node. -/
def updateNode (n : NodeId) (change : Node → Node) : Edit Unit :=
  modify fun f => { f with graph := f.graph.modify n change }

def defer (role : Role) (site : Site) : Edit Unit :=
  modify fun f => { f with deferred := f.deferred ++ [⟨role, site⟩] }

def updateDialog (dialog : NodeId) (change : DialogRecord → DialogRecord) : Edit Unit :=
  modify fun f => { f with dialogs := f.dialogs.alter dialog fun r => some (change (r.getD {})) }

def updateListeners (change : Listeners → Listeners) : Edit Unit :=
  modify fun f => { f with listeners := change f.listeners }

/-- Binds methods to a registration. -/
def bindHandlers (op : NodeId) (signatures : List String) : Edit Unit :=
  updateListeners fun l =>
    { l with handlers := l.handlers.alter op fun s => some ((s.getD ∅).insertMany signatures) }

end Flowgraph

end WidgetFlow
