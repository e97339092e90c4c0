import WidgetFlow.Flowgraph.Listener

/-!
# Methods that the framework runs

The framework calls methods of activities and views without a call in the application. The objects flow into these
methods, and what the framework does before the call becomes operations.
-/

namespace WidgetFlow.Flowgraph

open Std

/-! ## Activities -/

/-- The dialogs that an activity makes are handed to the methods that prepare them. -/
def dialogPreparation (activity : String) : Edit Unit := do
  let p ← program
  let created := (Framework.onCreateDialog.filterMap (p.callback? activity)).flatMap (·.returns)
  let parameters := (Framework.onPrepareDialog.filterMap (p.callback? activity)).filterMap (·.param? 1)
  created.forM fun v => do
    match ← valueNode v with
    | some dialog => parameters.forM fun l => discard (flowTo dialog l)
    | none => return ()

/-- The methods that the framework runs on an activity. -/
def activityCallbacks (cls : String) : Edit Unit := do
  let activity ← activityNode cls
  dialogPreparation cls
  optionsMenu cls
  contextItemSelection cls
  let p ← program
  ((← read).settings.activityCallbacks.filterMap (p.callback? cls)).forM (flowToThis activity)

/-- The activities of the application. -/
def activityClasses (p : Program) : List Class :=
  p.applicationClasses.filter fun c => c.isConcrete && p.isActivity c.name

def addCallbacks : Edit Unit := do
  (activityClasses (← program)).forM fun c => activityCallbacks c.name

/-! ## Inflated widgets -/

/-- A new widget flows into the constructors of its class, into the method that ends its inflation and into the one
that fills its context menu. Gives the context menu. -/
def widgetCallbacks (n : NodeId) (cls : String) : Edit (Option NodeId) := do
  let p ← program
  match (p.class? cls).filter (·.isApplication) with
  | some c => (c.methods.filter fun m => m.isConstructor && m.isConcrete).forM (flowToThis n)
  | none => pure ()
  match p.callback? cls Framework.onFinishInflate with
  | some m => flowToThis n m
  | none => pure ()
  viewContextMenu n cls

/-! ## Lists of activities -/

/-- The layout that a list activity without one of its own shows. -/
def defaultListLayout (apiLevel : Nat) : String :=
  if apiLevel ≥ 14 then "list_content_simple" else "list_content"

/-- Gives a list activity the list layout of the framework. -/
def addDefaultList (cls : String) (activity : NodeId) : Edit Unit := do
  let name := defaultListLayout (← read).settings.apiLevel
  match ← systemLayoutNode name with
  | some layout =>
    let window ← freshVar cls
    discard (addEdge activity window none)
    discard (addOp .setContent (.synthetic .defaultListLayout none) (some window) (some layout) none)
  | none => remark (.layoutMissing name)

/-- The pointers of windows that get a root view. -/
def rootedWindows (g : Graph) : NodeSet :=
  .ofList ((g.operations .setContent ++ g.operations .setRoot).filterMap fun n => (g.op? n).bind (·.receiver))

/-- Gives the activities without a root view the default one, if they are list activities. -/
def addDefaultRoots : Edit Unit := do
  let f ← get
  let rooted := rootedWindows f.graph
  f.activities.toList.forM fun (cls, activity) => do
    let g ← getGraph
    if (g.forward activity).toList.any (rooted.contains ·) then return ()
    let p ← program
    if p.isSubtype cls Framework.listActivity && !p.isSubtype cls Framework.preferenceActivity then
      addDefaultList cls activity
    else remark (.noRootView cls)

/-- A click on an item of the list of an activity runs a method of the activity. -/
def addListItemClick (cls : String) (activity : NodeId) (handler : Method) (listId : NodeId) : Edit Unit := do
  let place := CallSite.synthetic .listItemClick none
  let window ← freshVar cls
  discard (addEdge activity window none)
  let list ← freshVar Framework.listView
  discard (addOp .findInWindow place (some window) (some listId) (some list))
  let item ← freshVar Framework.view
  discard (addOp (.navigate .children) place (some list) none (some item))
  let listener ← addNode (.object (.syntheticListener Framework.onItemClickListener .listItemClick))
  let listenerVar ← freshVar Framework.onItemClickListener
  discard (addEdge listener listenerVar none)
  flowToParam list handler 0
  flowToParam item handler 1
  flowToThis activity handler
  let op ← addOp (.setListener false) place (some list) (some listenerVar) none
  registerSynthetic op .itemClick [handler.signature]

/-- The clicks on items of list activities. Nothing is done without the id of the list. -/
def addListItemClicks : Edit Unit := do
  let p ← program
  let clicked := (← get).activities.toList.filterMap fun (cls, activity) =>
    (p.callback? cls Framework.onListItemClick).map fun handler => (cls, activity, handler)
  if clicked.isEmpty then return ()
  match ← systemWidgetNode "list" with
  | some listId => clicked.forM fun (cls, activity, handler) => addListItemClick cls activity handler listId
  | none => remark .listIdMissing

end WidgetFlow.Flowgraph
