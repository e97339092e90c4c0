import WidgetFlow.Flowgraph.Nodes
import WidgetFlow.Framework

/-!
# Lists and their adapters

The items of a list are the views that its adapter returns. An adapter of the application returns them from a method of
its own; an array adapter of the framework inflates the layout that its constructor was given.

* `itemLayoutArgs`: the layouts that constructor calls hand on to the array adapter, each constructor being followed
  once.
-/

namespace WidgetFlow

open Std

/-- The calls by which a constructor hands its object on to other constructors. -/
def Method.delegations (m : Method) : List Call :=
  (m.body.filterMap (·.stmt.call?)).filter fun c => c.target.name == "<init>" && c.receiver = m.this?

namespace Flowgraph

/-! ## Calls that wait -/

/-- Calls of lists and adapters. Tells whether the call is nothing else. -/
def deferListCall (site : Site) (call : Call) : Edit Bool := do
  let p ← program
  let owner := call.target.owner
  let sub := call.target.subSignature
  if sub == Framework.setAdapter && (p.isSubtype owner Framework.listView || p.isSubtype owner Framework.gridView) then
    defer .setAdapter site
    return true
  if p.isSubtype owner Framework.listAdapter then
    if sub == Framework.getView && site.result?.isSome then defer .getView site
    else if call.target.name == "<init>" then defer .newAdapter site
  return false

/-! ## Layouts of items -/

/-- The constructor of the application that a call on an array adapter runs. -/
def adapterConstructor? (p : Program) (call : Call) : Option Method :=
  if p.isApplication call.target.owner && p.isSubtype call.target.owner Framework.arrayAdapter then
    (p.resolveSpecial call.target.owner call.target.subSignature).filter (·.isConcrete)
  else none

theorem adapterConstructor?_mem {p : Program} {call : Call} {m : Method} (h : adapterConstructor? p call = some m) :
    m ∈ p.methods := by
  unfold adapterConstructor? at h
  split at h
  · exact Program.resolveSpecial_mem (Option.filter_eq_some_iff.mp h).1
  · simp at h

/-- The methods whose signatures are not in a set. -/
def unvisited (p : Program) (visited : ExtTreeSet String) : List Method :=
  p.methods.filter fun m => m.signature ∉ visited

theorem length_unvisited_insert {p : Program} {visited : ExtTreeSet String} {m : Method} (hm : m ∈ p.methods)
    (hv : m.signature ∉ visited) :
    (unvisited p (visited.insert m.signature)).length < (unvisited p visited).length := by
  have hsub : unvisited p (visited.insert m.signature)
      = (unvisited p visited).filter fun k => k.signature ∉ visited.insert m.signature := by
    simp only [unvisited, List.filter_filter]
    refine List.filter_congr fun k _ => ?_
    by_cases hk : k.signature ∈ visited <;> simp [hk]
  have hmem : m ∈ unvisited p visited := by simp [unvisited, hm, hv]
  rw [hsub]
  refine Nat.lt_of_le_of_ne (List.length_filter_le _ _) fun heq => ?_
  have := (List.length_filter_eq_length_iff.mp heq) m hmem
  simp at this

/-- The layouts that reach the constructor of the array adapter from a list of constructor calls. -/
def itemLayoutArgs (p : Program) (visited : ExtTreeSet String) : List Call → List Value
  | [] => []
  | call :: calls =>
    if call.target.owner == Framework.arrayAdapter then (call.arg? 1).toList ++ itemLayoutArgs p visited calls
    else
      match _hm : adapterConstructor? p call with
      | some m =>
        if m.signature ∈ visited then itemLayoutArgs p visited calls
        else itemLayoutArgs p (visited.insert m.signature) (m.delegations ++ calls)
      | none => itemLayoutArgs p visited calls
termination_by calls => ((unvisited p visited).length, calls.length)
decreasing_by
  · exact Prod.Lex.right _ (Nat.lt_succ_self _)
  · exact Prod.Lex.right _ (Nat.lt_succ_self _)
  · rename_i hv
    exact Prod.Lex.left _ _ (length_unvisited_insert (adapterConstructor?_mem _hm) hv)
  · exact Prod.Lex.right _ (Nat.lt_succ_self _)

/-- Remembers the layouts of the items of the adapters that a constructor call makes. -/
def recordItemLayouts (site : Site) : Edit Unit := do
  let some call := site.call? | return ()
  let some receiver := call.receiver | return ()
  let layouts := itemLayoutArgs (← program) ∅ [call]
  if layouts.isEmpty then return ()
  let nodes ← layouts.filterMapM valueNode
  (← objectsReaching receiver).forM fun adapter =>
    modify fun f => { f with
      itemLayouts := f.itemLayouts.alter adapter fun s => some ((s.getD ∅).insertMany nodes) }

def itemLayoutsOf (adapter : NodeId) : Edit (List NodeId) :=
  return ((← get).itemLayouts.getD adapter ∅).toList

/-! ## Items -/

/-- The views that a method of the application returns are the items of the list, and the list is its parent
parameter. -/
def addReturnedItems (list : NodeId) (getView : Method) (site : Site) : Edit Unit := do
  (getView.returns.filterMap (·.var?)).forM fun item => do
    let itemVar ← varNode item
    discard (addOp .addChild (site.synthetic .adapterItem) (some list) (some itemVar) none)
  flowToParam list getView 2 (some site.label)

/-- The items that an adapter gives to a list. -/
def addAdapterItems (list : NodeId) (site : Site) (adapter : NodeId) : Edit Unit := do
  let some object := (← getGraph).object? adapter | return ()
  let p ← program
  match p.callback? object.cls Framework.getView with
  | some getView => addReturnedItems list getView site
  | none =>
    if p.isSubtype object.cls Framework.arrayAdapter then
      let layouts ← itemLayoutsOf adapter
      if layouts.isEmpty then remark (.unknownItemLayout object.cls) (some site.label)
      layouts.forM fun layout => do
        let item ← freshVar Framework.view
        let call := site.synthetic .adapterItem
        discard (addOp .inflate call none (some layout) (some item))
        discard (addOp .addChild call (some list) (some item) none)
    else if p.isSubtype object.cls Framework.baseAdapter then
      remark (.opaqueAdapter object.cls) (some site.label)

/-- `setAdapter` of a list. -/
def runSetAdapter (site : Site) : Edit Unit := do
  let some call := site.call? | return ()
  match call.receiver, (call.arg? 0).bind (·.var?) with
  | some list, some adapter =>
    let listVar ← varNode list
    (← objectsReaching adapter).forM (addAdapterItems listVar site)
  | _, _ => return ()

/-- `getView` of an array adapter of the framework inflates the layout of an item. -/
def runGetView (site : Site) : Edit Unit := do
  match site.receiver?, site.result? with
  | some receiver, some lhs =>
    let result ← varNode lhs
    (← objectsReaching receiver).forM fun adapter => do
      let some object := (← getGraph).object? adapter | return ()
      let p ← program
      if p.isSubtype object.cls Framework.arrayAdapter && (p.callback? object.cls Framework.getView).isNone then
        (← itemLayoutsOf adapter).forM fun layout =>
          discard (addOp .inflate (site.synthetic .adapterItem) none (some layout) (some result))
  | _, _ => return ()

def runLists : Edit Unit := do
  ((← get).sites .newAdapter).forM recordItemLayouts
  ((← get).sites .setAdapter).forM runSetAdapter
  ((← get).sites .getView).forM runGetView

end Flowgraph

end WidgetFlow
