import WidgetFlow.Flowgraph.State

/-!
# Solvers

A solver finds which objects each operand of each operation can be. It owns a flowgraph, which it extends by the widgets
that layouts make and by the flow that listeners bring, and it keeps sets that only grow.

* `Refine`: changes of a solver;
* `Solve`: changes of a solver that a violation can end, which keeps what was changed before.
-/

namespace WidgetFlow

open Std

/-! ## Operands -/

/-- The operands of an operation. The parameter of a registration is the listener. -/
inductive Slot where
  | receiver | parameter | result
  deriving DecidableEq

namespace Slot

def rank : Slot → Nat
  | receiver => 0 | parameter => 1 | result => 2

def text : Slot → String
  | receiver => "Receiver" | parameter => "Parameter" | result => "Result"

def all : List Slot := [receiver, parameter, result]

theorem rank_inj : ∀ {a b : Slot}, a.rank = b.rank → a = b := by
  intro a b; cases a <;> cases b <;> simp [rank]

end Slot

/-- A slot of an operation. -/
structure Operand where
  op : NodeId
  slot : Slot
  deriving DecidableEq

instance : Ord Operand := ⟨compareLex (compareOn Operand.op) (compareOn fun o => o.slot.rank)⟩

instance : TransOrd Operand := inferInstanceAs (TransCmp (compareLex _ _))

instance : LawfulEqOrd Operand where
  eq_of_compare {a b} h := by
    obtain ⟨h₁, h₂⟩ := compareLex_eq_eq.mp h
    have h₁ : a.op = b.op := LawfulEqCmp.eq_of_compare h₁
    have h₂ : a.slot.rank = b.slot.rank := LawfulEqCmp.eq_of_compare h₂
    have h₂ := Slot.rank_inj h₂
    cases a; cases b; simp_all

/-- The node in a slot of an operation. -/
def Op.operand? (o : Op) : Slot → Option NodeId
  | .receiver => o.receiver
  | .parameter => o.parameter
  | .result => o.result

/-- The declared type of the pointer in a slot. -/
def Graph.operandTy? (g : Graph) (o : Operand) : Option Ty := do
  let op ← g.op? o.op
  let n ← op.operand? o.slot
  let p ← g.pointer? n
  return p.ty

/-! ## The state -/

/-- How much a solver had to do. -/
structure Statistics where
  passes : Nat := 0
  classifications : Nat := 0
  inflated : Nat := 0
  deriving DecidableEq

structure Solver where
  flowgraph : Flowgraph
  log : List Log.Entry := []
  /-- The ids that reach the parameter of each operation. -/
  ids : ExtTreeMap NodeId NodeSet := ∅
  /-- The objects that flow reaches at each operand. -/
  candidates : ExtTreeMap Operand NodeSet := ∅
  /-- The operands that the result of each operation reaches. -/
  downstream : ExtTreeMap NodeId (ExtTreeSet Operand) := ∅
  solutions : ExtTreeMap Operand NodeSet := ∅
  /-- The root views of each window. -/
  roots : ExtTreeMap NodeId NodeSet := ∅
  /-- The operation and the layout or menu id that made each inflated node. -/
  origins : ExtTreeMap NodeId (NodeId × NodeId) := ∅
  /-- The unexpected flows, from a value to an operation, that were reported. -/
  reported : ExtTreeSet Arc := ∅
  /-- The refused containments, from a child to a parent, that were reported. -/
  rejected : ExtTreeSet Arc := ∅
  /-- An inflated widget flows into the application, which the classification has not seen. -/
  pending : Bool := false
  statistics : Statistics := {}

namespace Solver

variable (s : Solver)

def graph : Graph := s.flowgraph.graph

/-- The objects that an operand can be. -/
def solution (op : NodeId) (slot : Slot) : NodeSet := s.solutions.getD ⟨op, slot⟩ ∅

def receivers (op : NodeId) : NodeSet := s.solution op .receiver

def parameters (op : NodeId) : NodeSet := s.solution op .parameter

def results (op : NodeId) : NodeSet := s.solution op .result

/-- The listeners of a registration. -/
def listenersOf (op : NodeId) : NodeSet :=
  if (s.graph.op? op).any (·.kind.tag = .setListener) then s.parameters op else ∅

/-- The ids that reach the parameter of an operation. -/
def idsOf (op : NodeId) : NodeSet := s.ids.getD op ∅

/-- The root views of a window. -/
def rootsOf (window : NodeId) : NodeSet := s.roots.getD window ∅

end Solver

/-! ## Changes -/

abbrev Refine := ReaderT Context (StateM Solver)

abbrev Solve := ExceptT Fault Refine

namespace Solver

/-- Changes the flowgraph of a solver. -/
def onFlowgraph {α : Type} (act : Edit α) : Refine α := fun c s =>
  let (a, f) := (act c).run s.flowgraph
  pure (a, { s with flowgraph := f })

/-- Changes the flowgraph of a solver, unless a violation ends the change. -/
def onBuild {α : Type} (act : Build α) : Solve α :=
  ExceptT.mk (onFlowgraph act.run)

/-- The name under which solvers write to the log. -/
def logSource : String := "Fixpoint Solver"

def logEntry (level : Log.Level) (text : String) (location : Option Label) : Refine Unit :=
  modify fun s => { s with log := s.log ++ [{ text, level, location, source := some logSource }] }

def remark (r : Remark) (location : Option Label := none) : Refine Unit :=
  logEntry .debug r.text location

/-- A violation ends a strict analysis and is logged by others. -/
def report (v : Violation) (location : Option Label) : Solve Unit := do
  if (← read).settings.strict then throw ⟨v, location⟩ else logEntry .error v.text location

def program : Refine Program := return (← read).project.program

def resources : Refine Resources := return (← read).project.resources

def getGraph : Refine Graph := return (← get).graph

/-- Changes a node of the graph. -/
def updateNode (n : NodeId) (change : Node → Node) : Refine Unit :=
  onFlowgraph (Flowgraph.updateNode n change)

def updateStatistics (change : Statistics → Statistics) : Refine Unit :=
  modify fun s => { s with statistics := change s.statistics }

/-- Takes all entries of the log, those of the flowgraph first. -/
def takeLog : Refine (List Log.Entry) :=
  modifyGet fun s =>
    (s.flowgraph.log ++ s.log, { s with flowgraph := { s.flowgraph with log := [] }, log := [] })

end Solver

end WidgetFlow
