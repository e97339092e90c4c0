import WidgetFlow.Framework
import WidgetFlow.Solution.State

/-!
# Classification

Which ids and objects flow reaches at which operands. An operation expects ids of some spaces, and windows and menus in
some slots; any other id, window or menu there is a violation. What passes the declared type of an operand becomes part
of its solution.
-/

namespace WidgetFlow

open Std

/-! ## What operations expect -/

/-- The ids that the parameter of an operation is meant to be. -/
def OpKind.expectsId (kind : OpKind) (space : IdSpace) : Bool :=
  match space, kind.tag with
  | .layout, .inflate | .layout, .setContent | .layout, .setId => true
  | .menu, .inflateMenu => true
  | .widget, .findView | .widget, .findInWindow | .widget, .setId => true
  | .anonymous, .findView => true
  | .string, .setText => true
  | .drawable, .setImage => true
  | _, _ => false

/-- A widget id as the content of a window is no violation, and of no use. -/
def OpKind.ignoresId (kind : OpKind) (space : IdSpace) : Bool :=
  space = .widget && kind.tag = .setContent

/-- The slots in which an operation expects a window. -/
def OpKind.expectsWindow (kind : OpKind) (slot : Slot) : Bool :=
  match slot, kind.tag with
  | .receiver, .setContent | .receiver, .setRoot | .receiver, .findInWindow => true
  | .parameter, .setListener => true
  | _, _ => false

/-- The slots in which an operation expects a menu. -/
def OpKind.expectsMenu (kind : OpKind) (slot : Slot) : Bool :=
  match slot, kind.tag with
  | .receiver, .findView | .receiver, .navigate | .receiver, .addChild | .receiver, .inflateMenu => true
  | _, _ => false

/-- The slots in which an operation expects an object. -/
def OpKind.expects (kind : OpKind) (slot : Slot) (o : Obj) : Bool :=
  if o.isWindow then kind.expectsWindow slot
  else if o.isMenu then kind.expectsMenu slot
  else true

/-- An object of a class fits a declared type. A class that is not part of the program fits everything, and everything
fits it. -/
def Program.fits (p : Program) (declared : Option Ty) (cls : String) : Bool :=
  match declared with
  | none => true
  | some ty =>
    if ty.isArray then ty.text == cls
    else match ty.className? with
      | some d =>
        d == Framework.object || (p.class? d).isNone || (p.class? cls).isNone || p.isSubtype cls d
      | none => false

/-! ## What flow reaches -/

/-- The operands of other operations that the values of a node reach. -/
def Graph.operandsReached (g : Graph) (start : NodeId) : List Operand :=
  let reach := g.forward start
  reach.toList.flatMap fun n =>
    match g.op? n with
    | some op =>
      if n = start then []
      else [Slot.receiver, Slot.parameter].filterMap fun slot =>
        if (op.operand? slot).any (reach.contains ·) then some ⟨n, slot⟩ else none
    | none => []

namespace Solver

/-- Reports a value that flows into an operation that does not expect it, once. -/
def reportFlow (value op : NodeId) : Solve Unit := do
  let s ← get
  if ⟨value, op⟩ ∈ s.reported then return ()
  set { s with reported := s.reported.insert ⟨value, op⟩ }
  report (.unexpectedFlow (s.graph.describe value) (s.graph.describe op)) (s.graph.opLabel? op)

/-- Classifies an id by the operands that it reaches. -/
def classifyId (id : NodeId) : Solve Unit := do
  let g ← getGraph
  let some i := g.id? id | return ()
  (g.operandsReached id).forM fun o => do
    let some op := g.op? o.op | return ()
    if o.slot = .parameter && op.kind.expectsId i.space then
      modify fun s => { s with ids := s.ids.alter o.op fun found => some ((found.getD ∅).insert id) }
    else if !(o.slot = .parameter && op.kind.ignoresId i.space) then reportFlow id o.op

/-- Classifies an object by the operands that it reaches. -/
def classifyObject (n : NodeId) : Solve Unit := do
  let g ← getGraph
  let some object := g.object? n | return ()
  (g.operandsReached n).forM fun o => do
    let some op := g.op? o.op | return ()
    if op.kind.expects o.slot object then
      modify fun s => { s with candidates := s.candidates.alter o fun found => some ((found.getD ∅).insert n) }
    else reportFlow n o.op

/-- Finds the operands that the results of operations reach. -/
def classifyResults : Refine Unit := do
  let g ← getGraph
  g.ops.forM fun op => do
    let reached := g.operandsReached op
    if !reached.isEmpty then
      modify fun s =>
        { s with downstream := s.downstream.alter op fun found => some ((found.getD ∅).insertMany reached) }

/-! ## Solutions -/

/-- An object fits the declared type of an operand. -/
def accepts (p : Program) (g : Graph) (o : Operand) (n : NodeId) : Bool :=
  (g.object? n).any fun object => p.fits (g.operandTy? o) object.cls

/-- Adds the objects that fit to the solution of an operand, and tells whether one of them is new. -/
def addFitting (op : NodeId) (slot : Slot) (objects : List NodeId) : Refine Bool := do
  let p ← program
  let s ← get
  let accepted := objects.filter (accepts p s.graph ⟨op, slot⟩)
  let before := s.solution op slot
  set { s with solutions := s.solutions.insert ⟨op, slot⟩ (before.insertMany accepted) }
  return accepted.any fun n => !before.contains n

/-- Adds the candidates that fit to the solutions. -/
def seed : Refine Unit := do
  (← get).candidates.toList.forM fun (o, objects) => discard (addFitting o.op o.slot objects.toList)

/-- Classifies everything. -/
def classify : Solve Unit := do
  updateStatistics fun t => { t with classifications := t.classifications + 1 }
  let g ← getGraph
  g.resourceIds.forM classifyId
  g.objects.forM classifyObject
  classifyResults
  seed

end Solver

end WidgetFlow
