import WidgetFlow.Flowgraph.State

/-!
# The nodes of locals, fields, ids and values

There is at most one node for each local, each field, each id, each text and each activity class. It is made when it is
first asked for.
-/

namespace WidgetFlow.Flowgraph

open Std

/-- The first node that satisfies `p`, or a new node of the given kind. -/
def intern (p : NodeKind → Bool) (kind : NodeKind) : Edit NodeId := do
  match (← getGraph).find? p with
  | some n => return n
  | none => addNode kind

/-! ## Pointers -/

def varNode (l : Local) : Edit NodeId :=
  intern (· = .pointer (.var l)) (.pointer (.var l))

def fieldNode (f : Field) : Edit NodeId :=
  intern (· = .pointer (.field f)) (.pointer (.field f))

/-- The node of a new local that holds a value inside the framework. -/
def freshVar (cls : String) : Edit NodeId := do
  let n := (← get).fresh
  modify fun f => { f with fresh := f.fresh + 1 }
  varNode ⟨s!"$fake{n}", .ref cls⟩

/-! ## Ids -/

def isIdOf (space : IdSpace) (value : Int) : NodeKind → Bool
  | .id i => i.space = space && i.value = value
  | _ => false

def idNode (space : IdSpace) (value : Int) : Edit NodeId := do
  let name := (← resources).idName? space value
  intern (isIdOf space value) (.id ⟨space, value, name⟩)

/-- The node of a number that is a known id. -/
def knownIdNode (value : Int) : Edit (Option NodeId) := do
  match (← resources).classify? value with
  | some space => some <$> idNode space value
  | none => return none

def systemLayoutNode (name : String) : Edit (Option NodeId) := do
  match (← resources).systemLayouts[name]? with
  | some value => some <$> idNode .layout value
  | none => return none

def systemWidgetNode (name : String) : Edit (Option NodeId) := do
  match (← resources).systemWidgets[name]? with
  | some value => some <$> idNode .widget value
  | none => return none

/-- The node of a widget id, anonymous if the number is no known widget id. -/
def widgetIdNode (value : Int) : Edit NodeId := do
  idNode ((← resources).widgetSpace value) value

/-- One node for every known id. -/
def createIdNodes : Edit Unit := do
  let r ← resources
  IdSpace.known.forM fun space =>
    (((r.ids? space).map (·.keys)).getD []).forM fun value => discard (idNode space value)

/-! ## Values -/

def stringNode (s : String) : Edit NodeId :=
  intern (· = .object (.string s)) (.object (.string s))

/-- The one object of an activity class. -/
def activityNode (cls : String) : Edit NodeId :=
  intern (· = .object (.activity cls)) (.object (.activity cls))

/-- The node of a value. Numbers have one if they are known ids. -/
def valueNode : Value → Edit (Option NodeId)
  | .var l => some <$> varNode l
  | .int n => knownIdNode n
  | .str s => some <$> stringNode s
  | .null | .other _ => return none

def valueNode? : Option Value → Edit (Option NodeId)
  | some v => valueNode v
  | none => return none

/-! ## Flow into locals -/

/-- Lets a value flow into a local. -/
def flowTo (src : NodeId) (l : Local) (label : Option Label := none) : Edit Bool := do
  let dst ← varNode l
  addEdge src dst label

/-- Lets an object be the receiver of a method. -/
def flowToThis (src : NodeId) (m : Method) : Edit Unit := do
  match m.this? with
  | some l => discard (flowTo src l)
  | none => return ()

/-- Lets a value be a parameter of a method. -/
def flowToParam (src : NodeId) (m : Method) (index : Nat) (label : Option Label := none) : Edit Unit := do
  match m.param? index with
  | some l => discard (flowTo src l label)
  | none => return ()

/-- The objects whose flow reaches a local. -/
def objectsReaching (l : Local) : Edit (List NodeId) := do
  let var ← varNode l
  let g ← getGraph
  return (g.backward var).toList.filter fun n => (g.object? n).isSome

def objectsReaching? : Option Local → Edit (List NodeId)
  | some l => objectsReaching l
  | none => return []

end WidgetFlow.Flowgraph
