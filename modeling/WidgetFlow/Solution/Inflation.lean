import WidgetFlow.Decimal
import WidgetFlow.Flowgraph.Callback
import WidgetFlow.Solution.State

/-!
# Inflation

Layouts and menus that reach an inflating operation become nodes, once for each operation, id and window or menu. A
widget without a class is left out together with everything inside it. The items of a submenu go into the item that
opens it.
-/

namespace WidgetFlow.Solver

open Std

/-! ## Nodes -/

/-- The attributes whose values are drawables. -/
def drawableAttributes : List String := ["src", "background"]

/-- The known drawables among the attributes of a template. -/
def drawablesOf (r : Resources) (t : Template) : List Int :=
  ((drawableAttributes.filterMap (t.attributes[·]?)).filterMap Decimal.int64?).filter (· ∈ r.drawableIds)

/-- Gives a node the id, the text and the drawables of its template. -/
def bindAttributes (n : NodeId) (t : Template) : Edit Unit := do
  let id ← match t.id with
    | some value => some <$> Flowgraph.widgetIdNode value
    | none => pure none
  let text ← match t.text with
    | some s => some <$> Flowgraph.stringNode s
    | none => pure none
  let drawables ← (drawablesOf (← Flowgraph.resources) t).mapM (Flowgraph.idNode .drawable)
  Flowgraph.updateNode n fun node =>
    { node with
      id := id
      texts := node.texts.insertMany text.toList
      drawables := node.drawables.insertMany drawables }

/-- Adds the node of a template. -/
def addInflated (op layout : NodeId) (object : Obj) (t : Template) : Refine NodeId := do
  let n ← onFlowgraph (Flowgraph.addNode (.object object))
  updateStatistics fun st => { st with inflated := st.inflated + 1 }
  onFlowgraph (bindAttributes n t)
  modify fun s => { s with origins := s.origins.insert n (op, layout) }
  return n

/-- Puts a node into another for an operation, and tells whether it was not there before. A refusal is reported
once. -/
def attach (op child parent : NodeId) : Solve Bool := do
  let s ← get
  match s.graph.nest child parent with
  | .ok (g, added) =>
    set { s with flowgraph := { s.flowgraph with graph := g } }
    return added
  | .error v =>
    if ⟨child, parent⟩ ∈ s.rejected then return false
    set { s with rejected := s.rejected.insert ⟨child, parent⟩ }
    report v (s.graph.opLabel? op)
    return false

/-! ## Layouts -/

/-- The widget of a template, without its children. -/
def inflateWidget (op layout : NodeId) (cls : String) (t : Template) : Refine NodeId := do
  let n ← addInflated op layout (.inflated cls) t
  let menu ← onFlowgraph (Flowgraph.widgetCallbacks n cls)
  let g ← getGraph
  match menu with
  | some menu => remark (.inflatedViewMenu (g.describe n) (g.describe menu))
  | none => pure ()
  if menu.isSome || !(g.successors n).isEmpty then modify fun s => { s with pending := true }
  return n

mutual

/-- Makes the widgets of a template and gives the topmost. -/
def inflateView (op layout : NodeId) : Template → Solve (Option NodeId)
  | ⟨none, _, _, _, _⟩ => do
    let g ← getGraph
    remark (.classlessView (g.describe layout)) (g.opLabel? op)
    return none
  | ⟨some cls, id, text, attributes, children⟩ => do
    let n ← inflateWidget op layout cls ⟨some cls, id, text, attributes, children⟩
    inflateChildren op layout n children
    return some n

/-- Makes the widgets of templates inside a parent. -/
def inflateChildren (op layout parent : NodeId) : List Template → Solve Unit
  | [] => return ()
  | t :: ts => do
    match ← inflateView op layout t with
    | some child => discard (attach op child parent)
    | none => pure ()
    inflateChildren op layout parent ts

end

/-- The topmost widget of a layout for an operation and a window. -/
def inflateLayout (op layout : NodeId) (window : Option NodeId) : Solve (Option NodeId) := do
  let key : InflationKey := ⟨op, layout, window⟩
  let s ← get
  match s.flowgraph.inflations[key]? with
  | some root => return root
  | none =>
    let some id := s.graph.id? layout | return none
    let root ← match (← resources).layouts[id.value]? with
      | some t => inflateView op layout t
      | none =>
        remark (.layoutNotFound (s.graph.describe layout)) (s.graph.opLabel? op)
        pure none
    modify fun s => { s with
      flowgraph := { s.flowgraph with inflations := s.flowgraph.inflations.insert key root } }
    return root

/-! ## Menus -/

mutual

/-- Makes an item inside a menu or an item, and the items of its submenus. -/
def inflateItem (op menuId parent : NodeId) : Template → Solve Unit
  | ⟨cls, id, text, attributes, children⟩ => do
    let n ← addInflated op menuId (.menuItem Framework.menuItem attributes) ⟨cls, id, text, attributes, children⟩
    discard (attach op n parent)
    inflateSubmenus op menuId n children

/-- Makes the items of submenus inside an item. -/
def inflateSubmenus (op menuId parent : NodeId) : List Template → Solve Unit
  | [] => return ()
  | ⟨_, _, _, _, items⟩ :: menus => do
    inflateItems op menuId parent items
    inflateSubmenus op menuId parent menus

/-- Makes items inside a menu or an item. -/
def inflateItems (op menuId parent : NodeId) : List Template → Solve Unit
  | [] => return ()
  | item :: items => do
    inflateItem op menuId parent item
    inflateItems op menuId parent items

end

/-- Makes the items of a menu resource inside a menu. -/
def inflateMenu (op menuId menu : NodeId) : Solve Unit := do
  let key : InflationKey := ⟨op, menuId, some menu⟩
  let s ← get
  if key ∈ s.flowgraph.inflations then return ()
  set { s with flowgraph := { s.flowgraph with inflations := s.flowgraph.inflations.insert key none } }
  let some id := s.graph.id? menuId | return ()
  match (← resources).menus[id.value]? with
  | some t => inflateItems op menuId menu t.children
  | none => remark (.menuNotFound (s.graph.describe menuId)) (s.graph.opLabel? op)

/-! ## All inflations -/

/-- The ids of a space that reach an operation. -/
def idsIn (s : Solver) (op : NodeId) (space : IdSpace) : List NodeId :=
  (s.idsOf op).toList.filter fun n => (s.graph.id? n).any (·.space = space)

/-- The receivers of an operation of one kind. -/
def receiversWhere (s : Solver) (op : NodeId) (p : Obj → Bool) : List NodeId :=
  (s.receivers op).toList.filter fun n => (s.graph.object? n).any p

/-- The widgets of layouts without a window are results. -/
def inflateResults (op : NodeId) : Solve Unit := do
  ((← get).idsIn op .layout).forM fun layout => do
    match ← inflateLayout op layout none with
    | some root =>
      modify fun s => { s with
        solutions := s.solutions.alter ⟨op, .result⟩ fun found => some ((found.getD ∅).insert root) }
    | none => return ()

/-- The widgets of layouts for windows are root views. -/
def inflateContents (op : NodeId) : Solve Unit := do
  let s ← get
  (s.receiversWhere op (·.isWindow)).forM fun window => (s.idsIn op .layout).forM fun layout => do
    match ← inflateLayout op layout (some window) with
    | some root =>
      modify fun s => { s with roots := s.roots.alter window fun found => some ((found.getD ∅).insert root) }
    | none => return ()

/-- The items of menu resources go into menus. -/
def inflateMenus (op : NodeId) : Solve Unit := do
  let s ← get
  (s.receiversWhere op (·.isMenu)).forM fun menu => (s.idsIn op .menu).forM fun id => inflateMenu op id menu

/-- Inflates everything that reaches an inflating operation. Tells whether there is flow that the classification has
not seen. -/
def inflate : Solve Bool := do
  ((← getGraph).operations .inflate).forM inflateResults
  ((← getGraph).operations .setContent).forM inflateContents
  ((← getGraph).operations .inflateMenu).forM inflateMenus
  modifyGet fun s => (s.pending, { s with pending := false })

end WidgetFlow.Solver
