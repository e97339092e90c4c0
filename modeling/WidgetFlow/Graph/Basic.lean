import WidgetFlow.Graph.Node
import Std.Data.ExtTreeMap

/-!
# The graph

Nodes with two relations between them. *Flow* goes from where a value comes from to where it goes, and an edge can carry
the label of the statement behind it. *Containment* goes from a widget to the widget or menu around it. Nodes and edges
are never removed.
-/

namespace WidgetFlow

open Std

/-- An edge between two nodes. -/
structure Arc where
  src : NodeId
  dst : NodeId
  deriving DecidableEq

instance : Ord Arc := ⟨compareLex (compareOn Arc.src) (compareOn Arc.dst)⟩

instance : TransOrd Arc := inferInstanceAs (TransCmp (compareLex _ _))

instance : LawfulEqOrd Arc where
  eq_of_compare {a b} h := by
    obtain ⟨h₁, h₂⟩ := compareLex_eq_eq.mp h
    have h₁ : a.src = b.src := LawfulEqCmp.eq_of_compare h₁
    have h₂ : a.dst = b.dst := LawfulEqCmp.eq_of_compare h₂
    cases a; cases b; simp_all

structure Graph where
  nodes : Array Node := #[]
  flow : ExtTreeMap Arc (Option Label) := ∅
  containment : ExtTreeSet Arc := ∅

namespace Graph

variable (g : Graph)

/-! ## Nodes -/

def size : Nat := g.nodes.size

def ids : List NodeId := List.range g.size

def node? (n : NodeId) : Option Node := g.nodes[n]?

def object? (n : NodeId) : Option Obj := (g.node? n).bind (·.kind.object?)

def pointer? (n : NodeId) : Option Pointer := (g.node? n).bind (·.kind.pointer?)

def id? (n : NodeId) : Option ResourceId := (g.node? n).bind (·.kind.id?)

def op? (n : NodeId) : Option Op := (g.node? n).bind (·.kind.op?)

def isOp (n : NodeId) : Bool := (g.op? n).isSome

/-- The label of the statement of an operation. -/
def opLabel? (n : NodeId) : Option Label := (g.op? n).bind (·.site.stmt)

/-- The first node of a kind. -/
def find? (p : NodeKind → Bool) : Option NodeId :=
  g.nodes.findIdx? (p ·.kind)

def objects : List NodeId := g.ids.filter fun n => (g.object? n).isSome

def pointers : List NodeId := g.ids.filter fun n => (g.pointer? n).isSome

def resourceIds : List NodeId := g.ids.filter fun n => (g.id? n).isSome

def ops : List NodeId := g.ids.filter g.isOp

/-- The operations of a kind, in the order of their creation. -/
def operations (tag : OpTag) : List NodeId :=
  g.ids.filter fun n => (g.op? n).any (·.kind.tag = tag)

/-- The graph with one more node, which has the number `g.size`. -/
def push (kind : NodeKind) : Graph :=
  { g with nodes := g.nodes.push { kind } }

def modify (n : NodeId) (f : Node → Node) : Graph :=
  { g with nodes := g.nodes.modify n f }

/-! ## Flow -/

def hasFlow (src dst : NodeId) : Bool := g.flow.contains ⟨src, dst⟩

/-- Adds an edge. An edge that is there already keeps its label. -/
def connect (src dst : NodeId) (label : Option Label) : Graph :=
  { g with flow := g.flow.insertIfNew ⟨src, dst⟩ label }

def successors (n : NodeId) : List NodeId :=
  g.flow.keys.filterMap fun a => if a.src = n then some a.dst else none

def predecessors (n : NodeId) : List NodeId :=
  g.flow.keys.filterMap fun a => if a.dst = n then some a.src else none

/-- The graph with one more operation, its operands flowing into it and it into its result. -/
def pushOp (o : Op) : Graph :=
  let n := g.size
  let g := g.push (.op o)
  let g := match o.parameter with
    | some p => g.connect p n o.site.stmt
    | none => g
  let g := match o.receiver with
    | some r => g.connect r n o.site.stmt
    | none => g
  match o.result with
  | some r => g.connect n r o.site.stmt
  | none => g

end Graph

/-! ## Descriptions -/

def Obj.text : Obj → String
  | activity c => s!"ACT[{c}]"
  | dialog c _ _ => s!"DIALOG[{c}]"
  | optionsMenu a => s!"OptionsMenu[{a}]"
  | contextMenu h _ _ => s!"ContextMenu[{h}]"
  | tabSpec c _ => s!"TabSpec[{c}]"
  | inflated c => s!"INFL[{c}]"
  | menuItem c _ => s!"MenuItem[{c}]"
  | alloc c _ => s!"NEW[{c}]"
  | listenerAlloc c _ => s!"LISTENER[{c}]"
  | viewAlloc c _ => s!"VIEW[{c}]"
  | string s => s!"STR[{s}]"
  | syntheticListener i o => s!"SYNTH[{i} for {o.text}]"

def NodeKind.text : NodeKind → String
  | object o => o.text
  | pointer (.var l) => s!"VAR[{l.text}]"
  | pointer (.field f) => s!"FLD[{f.text}]"
  | id i =>
    match i.name with
    | some name => s!"{i.space.text}[{name}|{i.value}]"
    | none => s!"{i.space.text}[{i.value}]"
  | op o =>
    match o.site.stmt with
    | some l => s!"{o.kind.tag.text}[{l.text}]"
    | none => s!"{o.kind.tag.text}[artificial]"

/-- The text of a node: what it is, and its number. -/
def Graph.describe (g : Graph) (n : NodeId) : String :=
  let what := match g.node? n with
    | some node => node.kind.text
    | none => ""
  s!"{what}#{n}"

end WidgetFlow
