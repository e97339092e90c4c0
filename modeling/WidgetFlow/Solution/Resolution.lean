import WidgetFlow.Flowgraph.Listener
import WidgetFlow.Solution.Classification
import WidgetFlow.Solution.Inflation

/-!
# Resolution

What the operations do with the objects that are known so far. Each rule tells whether it changed something.
-/

namespace WidgetFlow.Solver

open Std

/-! ## Results -/

/-- Adds the results of operations to the operands that they reach. -/
def propagate : Refine Bool := do
  (← get).downstream.toList.foldlM
    (fun changed (op, operands) => do
      let results := ((← get).results op).toList
      if results.isEmpty then return changed
      let grown ← sweep (fun (o : Operand) => addFitting o.op o.slot results) operands.toList
      return changed || grown)
    false

/-! ## Look-up -/

/-- The nodes at or below `root` that have one of the ids. -/
def descendantsWithId (g : Graph) (ids : NodeSet) (root : NodeId) : List NodeId :=
  (g.descendants root).toList.filter fun n => ((g.node? n).bind (·.id)).any (ids.contains ·)

/-- The nodes below a node. -/
def properDescendants (g : Graph) (n : NodeId) : List NodeId :=
  (g.descendants n).toList.filter (· ≠ n)

/-- What a look-up by id finds below a receiver. -/
def foundBelow (g : Graph) (ids : NodeSet) (query : FindQuery) (receiver : NodeId) : List NodeId :=
  let found := descendantsWithId g ids receiver
  if found.isEmpty && query = .menuItem then properDescendants g receiver else found

def resolveFindView (op : NodeId) (query : FindQuery) : Refine Bool := do
  let s ← get
  addFitting op .result ((s.receivers op).toList.flatMap (foundBelow s.graph (s.idsOf op) query))

/-- One of the ids is the framework's id of the content of a window. -/
def asksForContent (r : Resources) (g : Graph) (ids : NodeSet) : Bool :=
  match r.systemWidgets["content"]? with
  | some value => ids.toList.any fun n => (g.id? n).any (·.value = value)
  | none => false

/-- What a look-up by id finds in a window. -/
def foundIn (s : Solver) (ids : NodeSet) (content : Bool) (window : NodeId) : List NodeId :=
  let roots := (s.rootsOf window).toList
  (if content && (s.graph.object? window).any (·.isActivity) then roots else [])
    ++ roots.flatMap (descendantsWithId s.graph ids)

def resolveFindInWindow (op : NodeId) : Refine Bool := do
  let s ← get
  let ids := s.idsOf op
  let content := asksForContent (← resources) s.graph ids
  addFitting op .result ((s.receivers op).toList.flatMap (s.foundIn ids content))

/-- What a look-up without an id finds. -/
def navigated (g : Graph) (navigation : Navigation) (n : NodeId) : List NodeId :=
  match navigation with
  | .children => g.children n
  | .descendantsAndSelf => (g.descendants n).toList
  | .descendantsNoSelf => properDescendants g n

def resolveNavigate (op : NodeId) (navigation : Navigation) : Refine Bool := do
  let s ← get
  addFitting op .result ((s.receivers op).toList.flatMap (navigated s.graph navigation))

/-! ## Windows and containment -/

/-- The widgets among the parameters. -/
def widgetParameters (s : Solver) (op : NodeId) : List NodeId :=
  (s.parameters op).toList.filter fun n => (s.graph.object? n).any (·.isWidget)

def resolveSetRoot (op : NodeId) : Refine Bool := do
  let s ← get
  let views := s.widgetParameters op
  sweep
    (fun window => modifyGet fun s =>
      let before := s.rootsOf window
      (views.any fun v => !before.contains v, { s with roots := s.roots.insert window (before.insertMany views) }))
    (s.receiversWhere op (·.isWindow))

def resolveAddChild (op : NodeId) : Solve Bool := do
  let s ← get
  let children := s.widgetParameters op
  sweep (fun parent => sweep (fun child => attach op child parent) children) (s.receivers op).toList

/-! ## Attributes -/

/-- The ids that reach the parameter of an operation, nearest first. -/
def orderedIds (s : Solver) (op : NodeId) : List NodeId :=
  let ids := s.idsOf op
  match (s.graph.op? op).bind (·.parameter) with
  | some parameter => (s.graph.backwardOrder parameter).filter (ids.contains ·)
  | none => ids.toList

/-- Binds an id to a node without one. -/
def bindId (id n : NodeId) : Refine Bool := do
  if ((← getGraph).node? n).any (·.id.isNone) then
    updateNode n fun node => { node with id := some id }
    return true
  else return false

/-- Binds the nearest id to the receivers that have none. -/
def resolveSetId (op : NodeId) : Refine Bool := do
  let s ← get
  match s.orderedIds op with
  | [] => return false
  | id :: more =>
    let changed ← sweep (bindId id) (s.receivers op).toList
    if changed && !more.isEmpty then
      logEntry .info (Remark.severalIds (s.graph.describe id)).text (s.graph.opLabel? op)
    return changed

/-- The nodes of a kind whose values reach the parameter of an operation. -/
def parameterSources (s : Solver) (op : NodeId) (p : NodeKind → Bool) : List NodeId :=
  match (s.graph.op? op).bind (·.parameter) with
  | some parameter => (s.graph.backward parameter).toList.filter fun n => (s.graph.node? n).any (p ·.kind)
  | none => []

/-- Texts are string constants and string ids. -/
def isText : NodeKind → Bool
  | .object (.string _) => true
  | .id i => i.space = .string
  | _ => false

def isDrawable : NodeKind → Bool
  | .id i => i.space = .drawable
  | _ => false

def resolveSetText (op : NodeId) : Refine Bool := do
  let s ← get
  let texts := s.parameterSources op isText
  sweep
    (fun n => do
      let before := (((← getGraph).node? n).map (·.texts)).getD ∅
      updateNode n fun node => { node with texts := node.texts.insertMany texts }
      return texts.any fun t => !before.contains t)
    (s.receivers op).toList

def resolveSetImage (op : NodeId) : Refine Bool := do
  let s ← get
  let drawables := s.parameterSources op isDrawable
  sweep
    (fun n => do
      let before := (((← getGraph).node? n).map (·.drawables)).getD ∅
      updateNode n fun node => { node with drawables := node.drawables.insertMany drawables }
      return drawables.any fun d => !before.contains d)
    (s.receivers op).toList

/-! ## Listeners -/

/-- Dispatches the events of a registration to its listeners, and tells whether there is new flow. -/
def resolveSetListener (op : NodeId) : Solve Bool := do
  let s ← get
  sweep
    (fun view => sweep (fun listener => onBuild (Flowgraph.dispatch op view listener)) (s.listenersOf op).toList)
    (s.receivers op).toList

/-- Resolves an operation that is no registration. -/
def resolve (op : NodeId) : Solve Bool := do
  let some o := (← getGraph).op? op | return false
  match o.kind with
  | .findView query => resolveFindView op query
  | .findInWindow => resolveFindInWindow op
  | .navigate navigation => resolveNavigate op navigation
  | .setRoot => resolveSetRoot op
  | .addChild => resolveAddChild op
  | .setId => resolveSetId op
  | .setText => resolveSetText op
  | .setImage => resolveSetImage op
  | .inflate | .setContent | .setListener _ | .inflateMenu => return false

end WidgetFlow.Solver
