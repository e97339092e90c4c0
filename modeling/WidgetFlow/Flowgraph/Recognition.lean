import WidgetFlow.Flowgraph.Listener

/-!
# Calls that are operations

Each recogniser looks at one shape of call. It makes the operation, finds that the operands are of no use, or leaves
the call to the others. The first that does not leave it decides.
-/

namespace WidgetFlow.Flowgraph

open Std

/-! ## Operands -/

/-- A layout or drawable id is a number other than 0. -/
def isNoId (v : Value) : Bool :=
  v.ty != .int || v.int? == some 0

/-- The node of an id operand: a local, or a number that is a known id. -/
def idOperand : Value → Edit (Option NodeId)
  | .var l => some <$> varNode l
  | .int n => knownIdNode n
  | _ => return none

/-! ## Layouts and content -/

/-- The layout and the parent of a call that inflates a layout. -/
def inflateOperands (p : Program) (call : Call) : Option (Value × Option Value) :=
  let sub := call.target.subSignature
  if p.isSubtype call.target.owner Framework.layoutInflater then
    if sub == Framework.inflate then (call.arg? 0).map (·, call.arg? 1)
    else if sub == Framework.inflateAttach then
      match (call.arg? 2).bind (·.int?) with
      | some n => (call.arg? 0).map (·, if n = 0 then none else call.arg? 1)
      | none => none
    else none
  else if p.isView call.target.owner && sub == Framework.viewInflate then (call.arg? 1).map (·, call.arg? 2)
  else none

/-- `inflate`. With a parent, the new view is also put into it. -/
def recognizeInflate (site : Site) (call : Call) : Build Recognition := do
  let some (layoutArg, rootArg) := inflateOperands (← program) call | return .unrecognized
  if isNoId layoutArg then return .unusable
  let some layout ← idOperand layoutArg | return .unrecognized
  match rootArg.bind (·.var?), site.result? with
  | some root, lhs =>
    let view ← freshVar Framework.view
    let op ← addOp .inflate site.callSite none (some layout) (some view)
    let rootVar ← varNode root
    discard (addOp .addChild (site.synthetic .outsideRootAttach) (some rootVar) (some view) none)
    match lhs with
    | some lhs => discard (flowTo view lhs (some site.label))
    | none => pure ()
    return .operation op
  | none, some lhs =>
    let result ← varNode lhs
    let op ← addOp .inflate site.callSite none (some layout) (some result)
    return .operation op
  | none, none => return .unusable

/-- `setContentView` with a layout. -/
def recognizeSetContent (site : Site) (call : Call) : Build Recognition := do
  if call.target.subSignature != Framework.setContentViewId || !(← program).isWindow call.target.owner then
    return .unrecognized
  match call.receiver, call.arg? 0 with
  | some receiver, some layoutArg =>
    if isNoId layoutArg then return .unusable
    let some layout ← idOperand layoutArg | return .unrecognized
    let window ← varNode receiver
    let op ← addOp .setContent site.callSite (some window) (some layout) none
    return .operation op
  | _, _ => return .unrecognized

/-- `setContentView` with a view. -/
def recognizeSetRoot (site : Site) (call : Call) : Build Recognition := do
  if !Framework.setContentView.contains call.target.subSignature || !(← program).isWindow call.target.owner then
    return .unrecognized
  match call.receiver, call.arg? 0 with
  | some receiver, some (.var view) =>
    let window ← varNode receiver
    let viewVar ← varNode view
    let op ← addOp .setRoot site.callSite (some window) (some viewVar) none
    return .operation op
  | some _, some _ => return .unusable
  | _, _ => return .unrecognized

/-- `addView`. -/
def recognizeAddChild (site : Site) (call : Call) : Build Recognition := do
  if call.target.name != Framework.addView || !(← program).isView call.target.owner then return .unrecognized
  match call.receiver, call.arg? 0 with
  | some receiver, some (.var child) =>
    let parent ← varNode receiver
    let childVar ← varNode child
    let op ← addOp .addChild site.callSite (some parent) (some childVar) none
    return .operation op
  | some _, some _ => return .unusable
  | _, _ => return .unrecognized

/-! ## Look-up -/

/-- `findViewById` on a view, or `findItem` on a menu with a number. -/
def recognizeFindView (site : Site) (call : Call) : Build Recognition := do
  let p ← program
  let sub := call.target.subSignature
  let query : Option FindQuery :=
    if sub == Framework.findViewById && p.isView call.target.owner then some .ordinary
    else if sub == Framework.findItem && p.isMenu call.target.owner then some .menuItem
    else none
  let some query := query | return .unrecognized
  match call.receiver, call.arg? 0 with
  | some receiver, some idArg =>
    let some lhs := site.result? | return .unusable
    match query, idArg with
    | .menuItem, .int value =>
      let id ← match ← knownIdNode value with
        | some id => pure id
        | none => widgetIdNode value
      find receiver lhs query id
    | .menuItem, _ => return .unrecognized
    | .ordinary, _ =>
      match ← idOperand idArg with
      | some id => find receiver lhs query id
      | none =>
        remark (.unknownViewId idArg) (some site.label)
        return .unrecognized
  | _, _ => return .unrecognized
where
  find (receiver lhs : Local) (query : FindQuery) (id : NodeId) : Build Recognition := do
    let receiverVar ← varNode receiver
    let result ← varNode lhs
    let op ← addOp (.findView query) site.callSite (some receiverVar) (some id) (some result)
    return .operation op

/-- `findViewById` on a window. -/
def recognizeFindInWindow (site : Site) (call : Call) : Build Recognition := do
  if call.target.subSignature != Framework.findViewById || !(← program).isWindow call.target.owner then
    return .unrecognized
  match call.receiver, call.arg? 0 with
  | some receiver, some idArg =>
    let some lhs := site.result? | return .unusable
    match ← idOperand idArg with
    | some id =>
      let window ← varNode receiver
      let result ← varNode lhs
      let op ← addOp .findInWindow site.callSite (some window) (some id) (some result)
      return .operation op
    | none =>
      remark (.unknownViewId idArg) (some site.label)
      return .unusable
  | _, _ => return .unrecognized

/-- What a call looks up without an id, if it does. -/
def navigation? (p : Program) (call : Call) : Option Navigation :=
  let sub := call.target.subSignature
  let onView := p.isView call.target.owner
  let onMenu := p.isMenu call.target.owner
  if onView && Framework.descendantQueries.contains sub then some .descendantsAndSelf
  else if (onView || onMenu) && Framework.childQueries.contains sub then some .children
  else if onMenu && sub == Framework.findItem then some .descendantsNoSelf
  else none

/-- Look-up of children or descendants, and `findItem` with an unknown number. -/
def recognizeNavigate (site : Site) (call : Call) : Build Recognition := do
  let some navigation := navigation? (← program) call | return .unrecognized
  match navigation, call.arg? 0 with
  | .descendantsNoSelf, some (.int _) => return .unusable
  | _, _ =>
    let some receiver := call.receiver | return .unrecognized
    let some lhs := site.result? | return .unusable
    let receiverVar ← varNode receiver
    let result ← varNode lhs
    let op ← addOp (.navigate navigation) site.callSite (some receiverVar) none (some result)
    return .operation op

/-! ## Attributes -/

/-- A call that binds an id to a view. -/
def recognizeIdSetter (kind : OpKind) (sub : String) (site : Site) (call : Call) : Build Recognition := do
  if call.target.subSignature != sub || !(← program).isView call.target.owner then return .unrecognized
  match call.receiver, call.arg? 0 with
  | some receiver, some idArg =>
    if isNoId idArg then return .unusable
    match ← idOperand idArg with
    | some id =>
      let view ← varNode receiver
      let op ← addOp kind site.callSite (some view) (some id) none
      return .operation op
    | none =>
      remark (.unknownId idArg kind.tag.text) (some site.label)
      return .unrecognized
  | _, _ => return .unrecognized

/-- `setId`. -/
def recognizeSetId : Site → Call → Build Recognition :=
  recognizeIdSetter .setId Framework.setId

/-- `setImageResource`. -/
def recognizeSetImage : Site → Call → Build Recognition :=
  recognizeIdSetter .setImage Framework.setImageResource

/-! ## Menus -/

/-- `add` of a menu makes an item, with an id if the call has four arguments, and with a title. -/
def recognizeAddItem (site : Site) (call : Call) : Build Recognition := do
  if !Framework.menuAdd.contains call.target.subSignature || !(← program).isMenu call.target.owner then
    return .unrecognized
  let some receiver := call.receiver | return .unrecognized
  let item ← match (← get).allocs[site.label]? with
    | some item => pure item
    | none =>
      let item ← addNode (.object (.menuItem Framework.menuItem ∅))
      modify fun f => { f with allocs := f.allocs.insert site.label item }
      pure item
  let itemVar ← match site.result? with
    | some lhs => varNode lhs
    | none => freshVar Framework.menuItem
  discard (addEdge item itemVar (some site.label))
  match if call.args.length = 4 then (call.arg? 1).bind (·.int?) else none with
  | some value =>
    if value != 0 then
      let id ← widgetIdNode value
      updateNode item fun n => { n with id := some id }
  | none => pure ()
  let menu ← varNode receiver
  let op ← addOp .addChild site.callSite (some menu) (some itemVar) none
  match ← valueNode? call.args.getLast? with
  | some title => discard (addOp .setText (site.synthetic .menuItemAdd) (some itemVar) (some title) none)
  | none => pure ()
  return .operation op

/-- `setTitle` of a menu item, which returns the item. -/
def recognizeSetTitle (site : Site) (call : Call) : Build Recognition := do
  if !Framework.setTitle.contains call.target.subSignature || !(← program).isMenuItem call.target.owner then
    return .unrecognized
  let some receiver := call.receiver | return .unrecognized
  let some title ← valueNode? (call.arg? 0) | return .unusable
  let item ← varNode receiver
  let op ← addOp .setText site.callSite (some item) (some title) none
  match site.result? with
  | some lhs => discard (flowTo item lhs (some site.label))
  | none => pure ()
  return .operation op

/-- `inflate` of a menu inflater. -/
def recognizeInflateMenu (site : Site) (call : Call) : Build Recognition := do
  if call.target.subSignature != Framework.menuInflate
      || !(← program).isSubtype call.target.owner Framework.menuInflater then
    return .unrecognized
  match call.arg? 0, call.arg? 1 with
  | some idArg, some (.var menu) =>
    if isNoId idArg then return .unusable
    let some id ← idOperand idArg | return .unrecognized
    let menuVar ← varNode menu
    let op ← addOp .inflateMenu site.callSite (some menuVar) (some id) none
    return .operation op
  | some _, some _ => return .unusable
  | _, _ => return .unrecognized

/-! ## Activities with tabs or a list -/

/-- `getTabHost` gives the window the tab layout of the framework and returns its tab host. -/
def recognizeGetTabHost (site : Site) (call : Call) : Build Recognition := do
  if call.target.subSignature != Framework.getTabHost then return .unrecognized
  let some receiver := call.receiver | return .unrecognized
  let p ← program
  if !receiver.ty.className?.any (fun cls => p.isApplication cls && p.isActivity cls) then return .unrecognized
  let layout ← systemLayoutNode "tab_content"
  let hostId ← systemWidgetNode "tabhost"
  match layout, hostId with
  | some layout, some hostId =>
    let activity ← varNode receiver
    let content ← addOp .setContent (site.synthetic .tabHostContent) (some activity) (some layout) none
    match site.result? with
    | some lhs =>
      let result ← varNode lhs
      let op ← addOp .findInWindow site.callSite (some activity) (some hostId) (some result)
      return .operation op
    | none => return .operation content
  | _, _ =>
    report .tabLayoutMissing (some site.label)
    return .unusable

/-- `getListView` looks up the list of the framework. -/
def recognizeGetListView (site : Site) (call : Call) : Build Recognition := do
  if call.target.subSignature != Framework.getListView
      || !(← program).isSubtype call.target.owner Framework.listActivity then
    return .unrecognized
  let some receiver := call.receiver | return .unrecognized
  let some lhs := site.result? | return .unusable
  match ← systemWidgetNode "list" with
  | some listId =>
    let activity ← varNode receiver
    let result ← varNode lhs
    let op ← addOp .findInWindow site.callSite (some activity) (some listId) (some result)
    return .operation op
  | none =>
    remark .listIdMissing (some site.label)
    return .unusable

/-! ## All shapes -/

/-- The recognisers in the order in which they are asked. -/
def recognizers : List (Site → Call → Build Recognition) :=
  [recognizeInflate, recognizeSetContent, recognizeFindView, recognizeFindInWindow, recognizeNavigate,
    recognizeSetRoot, recognizeAddChild, recognizeSetId, recognizeSetImage, recognizeListener, recognizeAddItem,
    recognizeSetTitle, recognizeInflateMenu, recognizeGetTabHost, recognizeGetListView]

/-- The answer of the first recogniser that does not leave the call to the others. -/
def firstRecognition (site : Site) (call : Call) : List (Site → Call → Build Recognition) → Build Recognition
  | [] => return .unrecognized
  | r :: rs => do
    match ← r site call with
    | .unrecognized => firstRecognition site call rs
    | answer => return answer

/-- What a call turns out to be. -/
def recognize (site : Site) (call : Call) : Build Recognition :=
  firstRecognition site call recognizers

end WidgetFlow.Flowgraph
