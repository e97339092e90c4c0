import WidgetFlow.Flowgraph.Nodes
import WidgetFlow.Framework

/-!
# Menus

The options menu of an activity and the context menus of views. A menu flows into the methods that fill it, and its
items flow into the methods that receive the selected item.
-/

namespace WidgetFlow

open Std

/-- A context menu that one more view shows. -/
def Node.showOn (view : NodeId) (n : Node) : Node :=
  match n.kind with
  | .object (.contextMenu h p views) => { n with kind := .object (.contextMenu h p (views.insert view)) }
  | _ => n

namespace Flowgraph

/-! ## Context menus -/

/-- Lets a context menu be the menu of the methods that receive its selected item. -/
def connectItemMenus (menu : NodeId) (handler : String) : Edit Unit := do
  let f ← get
  let receivers : ExtTreeSet String :=
    .ofList (f.itemHandlers.toList.flatMap fun (_, creations) => (creations.getD handler ∅).toList)
  receivers.toList.forM fun r => do
    match f.itemMenus[r]? with
    | some var => discard (addEdge menu var none)
    | none => return ()

/-- The context menu that a method fills through its menu parameter. The view is one that shows the menu. -/
def contextMenu (handler : String) (parameter view : NodeId) : Edit NodeId := do
  match (← get).contextMenus[parameter]? with
  | some menu =>
    updateNode menu (Node.showOn view)
    return menu
  | none =>
    let menu ← addNode (.object (.contextMenu handler parameter {view}))
    discard (addEdge menu parameter none)
    modify fun f => { f with contextMenus := f.contextMenus.insert parameter menu }
    connectItemMenus menu handler
    return menu

/-- The context menu of a view whose class fills one itself. -/
def viewContextMenu (view : NodeId) (cls : String) : Edit (Option NodeId) := do
  match (← program).callback? cls Framework.viewOnCreateContextMenu with
  | some handler =>
    match handler.this?, handler.param? 0 with
    | some this, some parameter =>
      discard (flowTo view this)
      let menuVar ← varNode parameter
      let viewVar ← varNode this
      some <$> contextMenu handler.signature menuVar viewVar
    | _, _ => return none
  | none => return none

/-! ## Selected items -/

/-- Before a method receives the selected item of a menu, the framework looks the item up. Without a menu node, all
context menus that the method serves share one local. -/
def itemSelection (menu : Option NodeId) (menuClass activity creation receiver : String) (index : Nat) :
    Edit Unit := do
  let some handler := (← program).callback? activity receiver | return ()
  let some parameter := handler.param? index | return ()
  let signature := handler.signature
  modify fun f => { f with
    itemHandlers := f.itemHandlers.alter activity fun creations =>
      some ((creations.getD ∅).alter creation fun s => some ((s.getD ∅).insert signature)) }
  let menuVar ← match menu with
    | some menu => do
      let var ← freshVar menuClass
      discard (addEdge menu var none)
      pure (some var)
    | none => do
      if signature ∈ (← get).itemMenus then pure none
      else
        let var ← freshVar menuClass
        modify fun f => { f with itemMenus := f.itemMenus.insert signature var }
        pure (some var)
  let some menuVar := menuVar | return ()
  let itemVar ← freshVar Framework.menuItem
  discard (addOp (.navigate .children) (.synthetic .menuItemSelection none) (some menuVar) none (some itemVar))
  discard (flowTo itemVar parameter)

/-- The options menu of an activity. -/
def optionsMenu (activity : String) : Edit Unit := do
  let p ← program
  let menu ← addNode (.object (.optionsMenu activity))
  modify fun f => { f with optionsMenus := f.optionsMenus.insert activity menu }
  [Framework.onCreateOptionsMenu, Framework.onPrepareOptionsMenu].forM fun sub => do
    match p.callback? activity sub with
    | some m => flowToParam menu m 0
    | none => return ()
  let creation := match p.callback? activity Framework.onCreateOptionsMenu with
    | some m => m.signature
    | none => Framework.onCreateOptionsMenu
  itemSelection (some menu) Framework.menu activity creation Framework.onOptionsItemSelected 0
  itemSelection (some menu) Framework.menu activity creation Framework.onMenuItemSelected 1

/-- The selected items of the context menus that an activity fills. The menus are connected when they are made. -/
def contextItemSelection (activity : String) : Edit Unit := do
  match (← program).callback? activity Framework.onCreateContextMenu with
  | some m =>
    itemSelection none Framework.contextMenu activity m.signature Framework.onContextItemSelected 0
    itemSelection none Framework.contextMenu activity m.signature Framework.onMenuItemSelected 1
  | none => return ()

end Flowgraph

end WidgetFlow
