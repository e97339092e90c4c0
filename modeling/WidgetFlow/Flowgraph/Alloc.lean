import WidgetFlow.Flowgraph.Menu

/-!
# New objects

Each statement that makes an object has one node for it. A dialog flows into the methods of its life cycle, a view into
the method that fills its context menu.
-/

namespace WidgetFlow.Flowgraph

open Std

/-- The object that a statement makes. -/
def allocOnce (site : Site) (object : Obj) (found : NodeId → Edit Unit) : Edit NodeId := do
  match (← get).allocs[site.label]? with
  | some n => return n
  | none =>
    let n ← addNode (.object object)
    modify fun f => { f with allocs := f.allocs.insert site.label n }
    found n
    return n

/-- The methods that the framework runs on a new dialog. -/
def dialogLifecycle (cls : String) (dialog : NodeId) : Edit Unit := do
  let p ← program
  let methods := Framework.dialogLifecycle.filterMap (p.callback? cls)
  methods.forM (flowToThis dialog)
  updateDialog dialog fun r => { r with lifecycle := r.lifecycle.insertMany (methods.map (·.signature)) }

/-- The dialog that a statement makes. -/
def dialogNode (cls : String) (site : Site) : Edit NodeId :=
  allocOnce site (.dialog cls (some site.label) true) (dialogLifecycle cls)

/-- The node of `new cls` at a statement. -/
def allocNode (cls : String) (site : Site) : Edit NodeId := do
  let p ← program
  if p.isDialog cls then dialogNode cls site
  else if p.isView cls then allocOnce site (.viewAlloc cls site.label) fun n => discard (viewContextMenu n cls)
  else if (← read).settings.isListener p cls then
    allocOnce site (.listenerAlloc cls site.label) fun _ => return ()
  else allocOnce site (.alloc cls site.label) fun _ => return ()

/-! ## Sides of assignments -/

/-- The node of the right side of an assignment. -/
def exprNode (e : Expr) (site : Site) : Edit (Option NodeId) := do
  match e with
  | .value v | .cast v _ => valueNode v
  | .new cls => some <$> allocNode cls site
  | .newArray element =>
    let n ← allocNode (element.text ++ "[]") site
    if !element.isArray then
      modify fun f => { f with arrays := f.arrays.insert n }
    return some n
  | .instanceField _ field | .staticField field => some <$> fieldNode field
  | .arrayRead _ _ | .call _ | .this | .parameter _ | .caughtException | .other => return none

/-- The node of the left side of an assignment. -/
def placeNode : Place → Edit (Option NodeId)
  | .var l => some <$> varNode l
  | .instanceField _ field | .staticField field => some <$> fieldNode field
  | .arrayWrite _ _ => return none

end WidgetFlow.Flowgraph
