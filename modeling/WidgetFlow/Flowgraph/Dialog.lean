import WidgetFlow.Flowgraph.Alloc
import WidgetFlow.Flowgraph.Listener

/-!
# Dialogs

Calls on dialogs, on builders of dialogs and on activities that show dialogs wait until all statements are known.
Then they are applied to the dialogs that reach them: a builder makes a dialog with all that was set on the builder, a
shown dialog gets its content, a button gets a listener.
-/

namespace WidgetFlow.Flowgraph

open Std

/-! ## Calls that wait -/

/-- The alert dialogs of the framework whose calls are followed. -/
def knownAlertDialogs : List String :=
  [Framework.alertDialog, Framework.timePickerDialog, Framework.datePickerDialog]

/-- Calls on dialogs of the framework, and calls on activities that show or dismiss dialogs. -/
def deferDialogCall (site : Site) (call : Call) : Edit Bool := do
  let some receiver := call.receiver | return false
  let p ← program
  if p.isDialog call.target.owner && !p.isApplication call.target.owner then
    let isOpaque := receiver.ty.className?.any fun cls =>
      p.isSubtype cls Framework.alertDialog && !knownAlertDialogs.contains cls && !p.isApplication cls
    if isOpaque then return true
    let name := call.target.name
    if name == "show" then
      defer .dialogShow site
      return true
    else if name == "dismiss" || name == "cancel" then
      defer .dialogDismiss site
      return true
    else if name.startsWith "set" then
      defer .dialogSet site
      return true
    else return false
  else if receiver.ty.className?.any fun cls => p.isApplication cls && p.isActivity cls then
    let sub := call.target.subSignature
    if Framework.showDialog.contains sub then
      defer .activityShow site
      return true
    else if Framework.dismissDialog.contains sub then
      defer .activityDismiss site
      return true
    else return false
  else return false

/-- Calls on builders of dialogs. A setter returns the builder. -/
def deferBuilderCall (site : Site) (call : Call) : Edit Bool := do
  let some receiver := call.receiver | return false
  if call.target.owner != Framework.alertDialogBuilder then
    return (← program).isSubtype call.target.owner Framework.alertDialogBuilder
  let name := call.target.name
  if name.startsWith "set" then
    defer .builderSet site
    match site.result? with
    | some lhs =>
      let builder ← varNode receiver
      discard (flowTo builder lhs (some site.label))
    | none => pure ()
    return true
  else if name == "create" || name == "show" then
    defer .builderCreate site
    return true
  else return false

/-- The calls of a role by the objects that reach their receivers. A receiver without such an object is remarked. -/
def resolveReceivers (role : Role) (p : Obj → Bool) : Edit (ExtTreeMap NodeId (List Site)) := do
  ((← get).sitesByReceiver role).toList.foldlM
    (fun resolved (receiver, sites) => do
      let reaching ← objectsReaching receiver
      let g ← getGraph
      let objects := reaching.filter fun n => (g.object? n).any p
      match objects, sites with
      | [], s :: _ => remark (.unknownReceiver receiver) (some s.label)
      | _, _ => pure ()
      return objects.foldl (fun m n => m.alter n fun ss => some (ss.getD [] ++ sites)) resolved)
    ∅

/-! ## Content -/

/-- The local that holds nothing but a dialog. -/
def dialogVar (dialog : NodeId) : Edit NodeId := do
  let f ← get
  match f.dialogVars[dialog]? with
  | some var => return var
  | none =>
    let cls := match f.graph.object? dialog with
      | some o => o.cls
      | none => Framework.dialog
    let var ← freshVar cls
    discard (addEdge dialog var none)
    modify fun f => { f with dialogVars := f.dialogVars.insert dialog var }
    return var

/-- Looks up a widget of the framework in a window. -/
def findSystemWidget (window : NodeId) (name cls : String) (site : CallSite) : Edit (Option NodeId) := do
  match ← systemWidgetNode name with
  | some id =>
    let result ← freshVar cls
    discard (addOp .findInWindow site (some window) (some id) (some result))
    return some result
  | none =>
    remark (.widgetMissing name) site.stmt
    return none

/-- Puts the widgets of a layout into the custom frame of a dialog. -/
def dialogCustomLayout (dialog layout : NodeId) (site : Site) : Edit Unit := do
  let window ← dialogVar dialog
  let call := site.synthetic .dialogCustomView
  match ← findSystemWidget window "custom" Framework.frameLayout call with
  | some custom =>
    let view ← freshVar Framework.view
    discard (addOp .inflate call none (some layout) (some view))
    discard (addOp .addChild call (some custom) (some view) none)
  | none => return ()

/-- Puts a view or the widgets of a layout into the custom frame of a dialog. -/
def dialogSetView (dialog : NodeId) (site : Site) (view : Option Value) : Build Unit := do
  match view with
  | none | some .null => return ()
  | some (.var l) =>
    let window ← dialogVar dialog
    let call := site.synthetic .dialogCustomView
    match ← findSystemWidget window "custom" Framework.frameLayout call with
    | some custom =>
      let viewVar ← varNode l
      discard (addOp .addChild call (some custom) (some viewVar) none)
    | none => return ()
  | some (.int value) =>
    match ← knownIdNode value with
    | some layout =>
      if ((← getGraph).id? layout).any (·.space = .layout) then dialogCustomLayout dialog layout site
      else remark (.unknownDialogLayout value) (some site.label)
    | none => remark (.unknownDialogLayout value) (some site.label)
  | some other => report (.unexpectedDialogView other) (some site.label)

/-- The layout of a picker dialog. -/
def pickerLayout? (p : Program) (cls : String) : Option String :=
  if p.isSubtype cls Framework.timePickerDialog then some "time_picker_dialog"
  else if p.isSubtype cls Framework.datePickerDialog then some "date_picker_dialog"
  else none

/-- Gives a dialog the content of an alert dialog. -/
def dialogContent (dialog : NodeId) (site : Site) : Edit Unit := do
  match ← systemLayoutNode "alert_dialog" with
  | some layout =>
    let window ← dialogVar dialog
    discard (addOp .setContent (site.synthetic .dialogContent) (some window) (some layout) none)
  | none => remark (.layoutMissing "alert_dialog") (some site.label)

/-- Gives a picker dialog its button and its picker. -/
def pickerContent (dialog : NodeId) (layoutName : String) (site : Site) : Edit Unit := do
  let window ← dialogVar dialog
  discard (findSystemWidget window "button1" Framework.button (site.synthetic .dialogButton))
  match ← systemLayoutNode layoutName with
  | some layout => dialogCustomLayout dialog layout site
  | none => remark (.layoutMissing layoutName) (some site.label)

/-- A dialog is shown. The first time, an alert dialog gets its content. -/
def showDialog (dialog : NodeId) (site : Site) : Edit Unit := do
  updateDialog dialog fun r => { r with shows := r.shows.insert site.label }
  let some object := (← getGraph).object? dialog | return ()
  let p ← program
  if !p.isSubtype object.cls Framework.alertDialog then return ()
  if dialog ∈ (← get).filledDialogs then return ()
  modify fun f => { f with filledDialogs := f.filledDialogs.insert dialog }
  dialogContent dialog site
  match pickerLayout? p object.cls with
  | some name => pickerContent dialog name site
  | none => return ()

/-- A dialog is dismissed. -/
def dismissDialog (dialog : NodeId) (labels : List Label) : Edit Unit :=
  updateDialog dialog fun r => { r with dismisses := r.dismisses.insertMany labels }

/-! ## Listeners -/

/-- Lets the objects that reach a listener run a method for a dialog, and gives the methods. -/
def bindDialogHandlers (dialog : NodeId) (listener : Option Value) (sub : String) : Edit (List Method) := do
  let objects ← objectsReaching? (listener.bind (·.var?))
  let p ← program
  let g ← getGraph
  let bound := objects.filterMap fun n => do
    let object ← g.object? n
    let m ← p.callback? object.cls sub
    return (n, m)
  bound.forM fun (n, m) => do
    flowToThis n m
    flowToParam dialog m 0
  return bound.map (·.2)

/-- A listener of the events of a dialog. -/
def dialogListener (dialog : NodeId) (listener : Option Value) (sub : String) : Edit Unit := do
  let methods ← bindDialogHandlers dialog listener sub
  if methods.isEmpty then return ()
  updateDialog dialog fun r => { r with others := r.others.insertMany (methods.map (·.signature)) }

/-- A button of a dialog runs a method of the listener and dismisses the dialog. -/
def dialogButton (dialog : NodeId) (which : Nat) (listener : Option Value) (site : Site) : Edit Unit := do
  let call := site.synthetic .dialogButton
  let window ← dialogVar dialog
  let some button ← findSystemWidget window s!"button{which}" Framework.button call | return ()
  let methods ← bindDialogHandlers dialog listener Framework.dialogOnClick
  let signatures := methods.map (·.signature)
  let object ← addNode (.object (.syntheticListener Framework.onClickListener .dialogButton))
  let listenerVar ← freshVar Framework.onClickListener
  discard (addEdge object listenerVar none)
  let op ← addOp (.setListener false) call (some button) (some listenerVar) none
  registerSynthetic op .dialogClick signatures
  updateDialog dialog fun r =>
    { r with
      others := r.others.insertMany signatures
      dismisses := r.dismisses.insert (site.label.withSuffix s!"_button{which}_dismiss") }

/-! ## Setters -/

/-- The number of the button that a call on a dialog sets. -/
def buttonIndex? (call : Call) : Option Nat :=
  if call.target.name == "setButton" then
    if call.args.length = 3 then
      match (call.arg? 0).bind (·.int?) with
      | some (-1) => some 1
      | some (-2) => some 2
      | some (-3) => some 3
      | _ => none
    else some 1
  else if call.target.name == "setButton2" then some 2
  else if call.target.name == "setButton3" then some 3
  else none

/-- The node of a dialog that cannot be cancelled. -/
def notCancelable (n : Node) : Node :=
  match n.kind with
  | .object (.dialog cls site _) => { n with kind := .object (.dialog cls site false) }
  | _ => n

/-- Applies a setter to a dialog. -/
def applySetter (dialog : NodeId) (site : Site) (call : Call) (onBuilder : Bool) : Build Unit := do
  let name := call.target.name
  if name == "setOnCancelListener" then dialogListener dialog (call.arg? 0) Framework.dialogOnCancel
  else if name == "setOnDismissListener" then dialogListener dialog (call.arg? 0) Framework.dialogOnDismiss
  else if name == "setOnKeyListener" then dialogListener dialog (call.arg? 0) Framework.dialogOnKey
  else if name == "setOnShowListener" then dialogListener dialog (call.arg? 0) Framework.dialogOnShow
  else if name == "setView" then dialogSetView dialog site (call.arg? 0)
  else if name == "setCancelable" then
    if (call.arg? 0).bind (·.int?) = some 0 then updateNode dialog notCancelable
  else if onBuilder then
    if name == "setPositiveButton" then dialogButton dialog 1 (call.arg? 1) site
    else if name == "setNegativeButton" then dialogButton dialog 2 (call.arg? 1) site
    else if name == "setNeutralButton" then dialogButton dialog 3 (call.arg? 1) site
  else if name.startsWith "setButton" then
    if !call.target.params.any (·.className? = some Framework.message) then
      match buttonIndex? call with
      | some which => dialogButton dialog which call.args.getLast? site
      | none => return ()

def applySetters (dialog : NodeId) (sites : List Site) (onBuilder : Bool) : Build Unit :=
  sites.forM fun s => do
    match s.call? with
    | some call => applySetter dialog s call onBuilder
    | none => return ()

/-! ## Deferred calls -/

def isBuilder : Obj → Bool
  | .alloc cls _ => cls == Framework.alertDialogBuilder
  | _ => false

/-- Each `create` or `show` of a builder makes a dialog with all that was set on the builder. -/
def runBuilders : Build Unit := do
  let creates ← resolveReceivers .builderCreate isBuilder
  let setters ← resolveReceivers .builderSet isBuilder
  creates.toList.forM fun (builder, sites) => sites.forM fun s => do
    let dialog ← dialogNode Framework.alertDialog s
    match s.result? with
    | some lhs => discard (flowTo dialog lhs (some s.label))
    | none => pure ()
    applySetters dialog (setters.getD builder []) true
    if s.call?.any (·.target.name == "show") then showDialog dialog s

/-- The dialogs that an activity makes and that `showDialog` and its like mean. -/
def dialogsOfActivity (site : Site) : Edit (List NodeId) := do
  let some receiver := site.receiver? | return []
  let reaching ← objectsReaching receiver
  let g ← getGraph
  let classes : ExtTreeSet String := .ofList (reaching.filterMap fun n => match g.object? n with
    | some (.activity cls) => some cls
    | _ => none)
  let p ← program
  let locals := classes.toList.flatMap fun cls =>
    (Framework.onCreateDialog.filterMap (p.callback? cls)).flatMap fun m => m.returns.filterMap (·.var?)
  let dialogs ← locals.foldlM
    (fun (found : NodeSet) l => do
      let objects ← objectsReaching l
      let g ← getGraph
      return found.insertMany (objects.filter fun n => (g.object? n).any (·.isDialog)))
    ∅
  return dialogs.toList

/-- `showDialog` and `dismissDialog` of activities. -/
def runActivityDialogs (role : Role) (act : NodeId → Site → Edit Unit) : Edit Unit := do
  ((← get).sites role).forM fun s => do
    let dialogs ← dialogsOfActivity s
    if dialogs.isEmpty then remark .unresolvedDialogs (some s.label)
    dialogs.forM fun d => act d s

def runDialogs : Build Unit := do
  runBuilders
  let shows ← resolveReceivers .dialogShow (·.isDialog)
  shows.toList.forM fun (d, sites) => sites.forM fun s => showDialog d s
  let dismisses ← resolveReceivers .dialogDismiss (·.isDialog)
  dismisses.toList.forM fun (d, sites) => dismissDialog d (sites.map (·.label))
  let setters ← resolveReceivers .dialogSet (·.isDialog)
  setters.toList.forM fun (d, sites) => applySetters d sites false
  runActivityDialogs .activityShow showDialog
  runActivityDialogs .activityDismiss fun d s => dismissDialog d [s.label]

end WidgetFlow.Flowgraph
