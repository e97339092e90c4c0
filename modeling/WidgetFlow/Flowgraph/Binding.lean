import WidgetFlow.Flowgraph.ItemList
import WidgetFlow.Flowgraph.Recognition
import WidgetFlow.Flowgraph.Tab

/-!
# Statements

A call that is no operation binds its receiver, its arguments and its result to those of the methods that it can run.
An assignment lets the right side flow into the left side. The elements of an array are told apart by the array only.
-/

namespace WidgetFlow.Flowgraph

open Std

/-! ## Calls -/

/-- Keeps the calls that wait until all statements are known. -/
def deferCall (site : Site) (call : Call) : Build Unit := do
  if ← deferListCall site call then return ()
  if ← deferDialogCall site call then return ()
  if ← deferBuilderCall site call then return ()
  deferTabCall site call

/-- The methods of the application that a call can run, by signature. -/
def callees (p : Program) (call : Call) : ExtTreeMap String Method :=
  let sub := call.target.subSignature
  let methods :=
    if call.isVirtual then
      let cls := ((call.receiver.bind (·.ty.className?)).getD call.target.owner)
      (p.concreteSubtypes cls).filterMap fun c => p.resolveVirtual c.name sub
    else (p.resolveSpecial call.target.owner sub).toList
  (ExtTreeMap.ofList (methods.map fun m => (m.signature, m))).filter fun _ m =>
    m.isConcrete && p.isApplication m.owner

/-- Lets a value flow into a local at a statement. -/
def flowValue (v : Value) (l : Local) (site : Site) : Edit Unit := do
  match ← valueNode v with
  | some n => discard (flowTo n l (some site.label))
  | none => return ()

/-- Binds receiver, arguments and result of a call to those of a method. -/
def bindCall (site : Site) (call : Call) (m : Method) : Edit Unit := do
  match call.receiver, m.this?.filter (·.ty.isTracked) with
  | some receiver, some this => flowValue (.var receiver) this site
  | _, _ => pure ()
  call.args.zipIdx.forM fun (arg, i) => do
    match (m.param? i).filter (·.ty.isTracked) with
    | some formal => flowValue arg formal site
    | none => return ()
  match site.result?.filter (·.ty.isTracked) with
  | some lhs => m.returns.forM fun v => flowValue v lhs site
  | none => return ()

def addCall (site : Site) (call : Call) : Build Unit := do
  match ← recognize site call with
  | .operation _ | .unusable => return ()
  | .unrecognized =>
    deferCall site call
    (callees (← program) call).toList.forM fun (_, m) => bindCall site call m

/-! ## Assignments -/

/-- The method that the framework runs on a new object. -/
def runMethod? (p : Program) : Expr → Option Method
  | .new cls => ((p.class? cls).bind (·.declared? Framework.run)).filter (·.isConcrete)
  | _ => none

def addAssignment (site : Site) (lhs : Place) (rhs : Expr) : Edit Unit := do
  if !lhs.ty.isTracked then return ()
  match lhs, rhs with
  | _, .this | _, .parameter _ | _, .caughtException => return ()
  | .arrayWrite _ _, _ => defer .arrayWrite site
  | _, .arrayRead _ _ => defer .arrayRead site
  | _, _ =>
    let source ← exprNode rhs site
    let target ← placeNode lhs
    match source, target with
    | some source, some target =>
      discard (addEdge source target (some site.label))
      match (runMethod? (← program) rhs).bind (·.this?) with
      | some this => discard (flowTo source this (some site.label))
      | none => return ()
    | _, _ => return ()

/-! ## Arrays -/

/-- The locals that an array reaches. -/
def localsOf (g : Graph) (array : NodeId) : List Local :=
  (g.forward array).toList.filterMap fun n => match g.pointer? n with
    | some (.var l) => some l
    | _ => none

/-- The deferred statements of a role whose array is one of the locals. -/
def sitesOn (f : Flowgraph) (role : Role) (locals : List Local) : List Site :=
  locals.flatMap fun l => (f.sites role).filter (·.array? = some l)

/-- What is written into an array flows to where an element is read. -/
def linkArray (array : NodeId) : Edit Unit := do
  let f ← get
  let locals := localsOf f.graph array
  let reads := f.sitesOn .arrayRead locals
  (f.sitesOn .arrayWrite locals).forM fun w => do
    match w.instr.stmt with
    | .assign _ rhs =>
      match ← exprNode rhs w with
      | some source => reads.forM fun r => do
        match r.instr.stmt with
        | .assign (.var target) _ => discard (flowTo source target (some r.label))
        | _ => return ()
      | none => return ()
    | _ => return ()

def linkArrays : Edit Unit := do
  (← get).arrays.toList.forM linkArray

/-! ## All statements -/

def addStmt (site : Site) : Build Unit := do
  match site.call?, site.instr.stmt with
  | some call, _ => addCall site call
  | none, .assign lhs rhs => addAssignment site lhs rhs
  | none, _ => return ()

def addStmts : Build Unit := do
  (← program).applicationMethods.forM fun m => m.body.forM fun i => addStmt ⟨m, i⟩

end WidgetFlow.Flowgraph
