import WidgetFlow.Flowgraph.Menu

/-!
# Listeners

A registration of a listener is an operation. Who receives which view is known when the solver has found the objects
of the registration, and `dispatch` lets them flow into the methods of the listener. Registrations of context menus
go by the declared types instead, in `runMenuTasks`.

* `Recognition`: what a call turns out to be.
-/

namespace WidgetFlow

open Std

/-- What is made of a call: an operation; nothing, as its operands are of no use; or it is an ordinary call. -/
inductive Recognition where
  | operation (op : NodeId)
  | unusable
  | unrecognized
  deriving DecidableEq

namespace Flowgraph

/-! ## Registrations -/

/-- A listener that the framework registers. -/
def registerSynthetic (op : NodeId) (event : EventKind) (signatures : List String) : Edit Unit := do
  updateListeners fun l => { l with modelled := l.modelled.insert op, events := l.events.insert op event }
  bindHandlers op signatures

/-- The registration of a listener on a view, by a method of the settings or by `registerForContextMenu`. -/
def registerListener (site : Site) (call : Call) (view listener : Local) (spec : Option (Nat × ListenerSpec)) :
    Build Recognition := do
  let p ← program
  let settings := (← read).settings
  if !view.ty.className?.any p.isViewOrMenuItem then
    report (.notGuiObject view) (some site.label)
    return .unusable
  if !listener.ty.className?.any (settings.isListener p) then
    report (.notListener listener) (some site.label)
    return .unusable
  let onMenu := call.target.name == Framework.setOnCreateContextMenuListener
    || call.target.subSignature == Framework.registerForContextMenu
  let viewVar ← varNode view
  let listenerVar ← varNode listener
  let op ← addOp (.setListener onMenu) site.callSite (some viewVar) (some listenerVar) none
  match spec with
  | some (index, s) =>
    updateListeners fun l =>
      { l with registrations := l.registrations.insert op index, events := l.events.insert op s.event }
  | none => updateListeners fun l => { l with events := l.events.insert op .implicitCreateContextMenu }
  if onMenu then
    let listenerType := match spec with
      | some (_, s) => s.listenerType
      | none => Settings.contextMenuListener
    let task : MenuTask := { op, view, listener, listenerType, registration := spec.map (·.1), location := site.label }
    updateListeners fun l => { l with modelled := l.modelled.insert op, tasks := l.tasks ++ [task] }
  return .operation op

/-- A call that registers a listener. The listener must be a local; `null` registers nothing. -/
def recognizeListener (site : Site) (call : Call) : Build Recognition := do
  let some receiver := call.receiver | return .unrecognized
  let p ← program
  let settings := (← read).settings
  let sub := call.target.subSignature
  let registration := do
    let index ← settings.registration? p call.target.owner sub
    let spec ← settings.listeners[index]?
    return (index, spec)
  match registration with
  | some (index, spec) =>
    if ((call.target.params[spec.position]?).bind (·.className?)).any p.isApplication then return .unrecognized
    match call.arg? spec.position with
    | some (.var listener) => registerListener site call receiver listener (some (index, spec))
    | some .null => return .unusable
    | _ =>
      report (.unexpectedListener call.target.signature) (some site.label)
      return .unusable
  | none =>
    if sub == Framework.registerForContextMenu && p.isActivity call.target.owner then
      match call.arg? 0 with
      | some (.var view) => registerListener site call view receiver none
      | some .null => return .unusable
      | _ =>
        report (.unexpectedView call.target.signature) (some site.label)
        return .unusable
    else return .unrecognized

/-! ## Context menus -/

/-- The methods that a registration of a context menu can run, by signature. -/
def menuHandlers (c : Context) (task : MenuTask) : ExtTreeMap String Method :=
  let p := c.project.program
  let declared : ExtTreeSet String := .ofList ((p.interfaceMethods task.listenerType).map (·.subSignature))
  let prototypes : ExtTreeSet String := match task.registration.bind (c.settings.listeners[·]?) with
    | some spec => if declared.isEmpty then .ofList (spec.handlers.map (·.subSignature)) else declared
    | none => declared
  match task.listener.ty.className? with
  | some cls =>
    let classes := (p.concreteSubtypes cls).filter fun k => c.settings.isListener p k.name
    let methods := classes.flatMap fun k => prototypes.toList.filterMap (p.callback? k.name)
    .ofList (methods.map fun m => (m.signature, m))
  | none => ∅

/-- Binds the methods of a registration of a context menu. -/
def runMenuTask (task : MenuTask) : Edit Unit := do
  if task.listener.ty.className?.isNone then return ()
  let c ← read
  let p := c.project.program
  let listenerVar ← varNode task.listener
  let viewVar ← varNode task.view
  (menuHandlers c task).toList.forM fun (signature, handler) => do
    flowToThis listenerVar handler
    let onMenu := task.listenerType == Settings.contextMenuListener
    if onMenu then
      match handler.param? 0 with
      | some l =>
        let menuVar ← varNode l
        discard (contextMenu signature menuVar viewVar)
      | none => pure ()
    let position := if onMenu then some 1 else c.settings.viewPosition? handler.subSignature
    match position.bind handler.param? with
    | some parameter =>
      if parameter.ty.className?.any p.isViewOrMenuItem then
        discard (flowTo viewVar parameter (some task.location))
        bindHandlers task.op [signature]
      else remark (.unexpectedViewParameter parameter signature) (some task.location)
    | none => return ()

def runMenuTasks : Edit Unit := do
  (← get).listeners.tasks.forM runMenuTask

/-! ## Dispatch -/

/-- Lets a listener and a view flow into one method of the listener, and tells whether this is new. -/
def dispatchTo (op view listener : NodeId) (location : Option Label) (spec : HandlerSpec) : Edit Bool := do
  let p ← program
  let g ← getGraph
  let some listenerObject := g.object? listener | return false
  let some handler := p.callback? listenerObject.cls spec.subSignature | return false
  bindHandlers op [handler.signature]
  let toThis ← match handler.this? with
    | some this => flowTo listener this location
    | none => pure false
  let some parameter := spec.viewPosition.bind handler.param? | return toThis
  let fits := match g.object? view, parameter.ty.className? with
    | some v, some cls => p.isSubtype v.cls cls
    | _, _ => false
  if fits then
    let toView ← flowTo view parameter location
    return toThis || toView
  else
    remark (.unfitView (g.describe view) handler.signature) location
    return toThis

/-- Dispatches the events of a registration to a listener, once for each view and listener, and tells whether there
is new flow. -/
def dispatch (op view listener : NodeId) : Build Bool := do
  let f ← get
  if op ∈ f.listeners.modelled then return false
  if (op, view, listener) ∈ f.listeners.dispatched then return false
  updateListeners fun l => { l with dispatched := l.dispatched ++ [(op, view, listener)] }
  if (f.graph.object? view).any (·.isContextMenu) then return false
  let location := f.graph.opLabel? op
  let some registration := f.listeners.registrations[op]? | do
    report (.unknownRegistration (f.graph.describe op)) location
    return false
  if (f.graph.object? listener).isNone then return false
  let specs := match (← read).settings.listeners[registration]? with
    | some spec => spec.handlers
    | none => []
  sweep (fun spec => dispatchTo op view listener location spec) specs

end Flowgraph

end WidgetFlow
