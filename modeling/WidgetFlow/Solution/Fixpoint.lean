import WidgetFlow.Flowgraph.Construction
import WidgetFlow.Solution.Resolution

/-!
# The fixpoint

Operations are resolved pass after pass until a pass changes nothing. All sets only grow, and there is only so much that
they can hold: `bound` is more than can ever be found, so it never cuts the passes short.
-/

namespace WidgetFlow

open Std

/-! ## How much there can be -/

mutual

/-- The number of nodes of a template. -/
def Template.size : Template → Nat
  | ⟨_, _, _, _, children⟩ => 1 + Template.sizes children

/-- The number of nodes of templates. -/
def Template.sizes : List Template → Nat
  | [] => 0
  | t :: ts => t.size + Template.sizes ts

end

/-- The number of nodes of all layouts and menus. -/
def Resources.size (r : Resources) : Nat :=
  Template.sizes (r.layouts.toList.map (·.2)) + Template.sizes (r.menus.toList.map (·.2))

/-- The number of statements. -/
def Program.size (p : Program) : Nat :=
  p.methods.foldl (fun n m => n + m.body.length) 0

/-- More than the number of facts that a solver can find in a flowgraph. -/
def Flowgraph.bound (c : Context) (f : Flowgraph) : Nat :=
  Nat.pow (f.graph.size + c.project.program.size + c.project.resources.size + 2) 16

namespace Solver

def bound : Refine Nat := return (← get).flowgraph.bound (← read)

/-! ## Rounds -/

/-- Makes rounds until one tells that it is the last, at most `n`. Tells whether this was reached. -/
def upTo (round : Solve Bool) : Nat → Solve Bool
  | 0 => return false
  | n + 1 => do
    if ← round then upTo round n else return true

/-! ## Inflation -/

/-- Inflates what has become known, and classifies the flow that this brings. Tells whether there is any. -/
def inflateRound : Solve Bool := do
  if ← inflate then
    classify
    return true
  else return false

/-- Inflates and classifies until inflation brings no more flow. Tells whether there are new nodes. -/
def inflateAll : Solve Bool := do
  let before := (← get).statistics.inflated
  discard (upTo inflateRound (← bound))
  return before < (← get).statistics.inflated

/-! ## Passes -/

/-- The order in which operations are resolved, before the registrations. -/
def resolutionOrder : List OpTag :=
  [.findView, .findInWindow, .navigate, .setRoot, .addChild, .setId, .setText, .setImage]

/-- Resolves the operations of a kind. -/
def resolveAll (tag : OpTag) : Solve Bool := do
  let resolved ← sweep resolve ((← getGraph).operations tag)
  let propagated ← propagate
  return resolved || propagated

/-- Resolves the registrations. Tells whether there is new flow, and whether solutions grew. -/
def dispatchAll : Solve (Bool × Bool) := do
  let flows ← sweep resolveSetListener ((← getGraph).operations .setListener)
  let propagated ← propagate
  return (flows, propagated)

/-- Resolves every operation once, and classifies the flow that this brings. Tells whether something changed, and
whether there is new flow. -/
def resolveOnce : Solve (Bool × Bool) := do
  updateStatistics fun t => { t with passes := t.passes + 1 }
  let propagated ← propagate
  let resolved ← sweep resolveAll resolutionOrder
  let (flows, grown) ← dispatchAll
  if flows then classify
  return (propagated || resolved || flows || grown, flows)

/-- Resolves every operation once and inflates what has become known, and tells whether this changed something. -/
def pass : Solve Bool := do
  let (changed, flows) ← resolveOnce
  let inflated ← inflateAll
  if inflated || flows then discard propagate
  return changed || inflated

/-- Solves a flowgraph that is classified. Passes are made until one changes nothing. -/
def solveClassified : Solve Unit := do
  discard inflateAll
  discard (upTo pass (← bound))
  let t := (← get).statistics
  remark (.fixpoint t.passes t.classifications t.inflated)

/-- Solves the flowgraph. A strict solver ends at the first violation. -/
def solve : Solve Unit := do
  classify
  solveClassified

end Solver

/-! ## Analyses -/

/-- Builds the flowgraph of an application and solves it. -/
def analyze (c : Context) : Except Fault Solver :=
  match Flowgraph.build c with
  | .ok f =>
    match (Solver.solve.run c).run { flowgraph := f } with
    | (.ok (), s) => .ok s
    | (.error e, _) => .error e
  | .error e => .error e

end WidgetFlow
