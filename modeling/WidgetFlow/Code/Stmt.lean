import WidgetFlow.Code.Value

/-!
# Statements

A method body is a list of labelled statements. The order of statements and the flow of control do not matter to the
analysis.
-/

namespace WidgetFlow

/-! ## Calls -/

/-- The text of a method without its class: return type, name and parameter types. -/
def subSignature (name : String) (params : List Ty) (ret : Ty) : String :=
  let list := ",".intercalate (params.map Ty.text)
  s!"{ret.text} {name}({list})"

/-- A method as it is named in a call. The method that runs may be declared in a superclass. -/
structure MethodRef where
  owner : String
  name : String
  params : List Ty
  ret : Ty
  deriving DecidableEq

namespace MethodRef

def subSignature (m : MethodRef) : String :=
  WidgetFlow.subSignature m.name m.params m.ret

def signature (m : MethodRef) : String :=
  s!"<{m.owner}: {m.subSignature}>"

end MethodRef

inductive CallKind where
  | static | special | virtual | interface
  deriving DecidableEq

/-- A call. Static calls have no receiver. -/
structure Call where
  kind : CallKind
  target : MethodRef
  receiver : Option Local
  args : List Value
  deriving DecidableEq

namespace Call

def arg? (c : Call) (i : Nat) : Option Value := c.args[i]?

/-- The method is chosen by the class of the receiver. -/
def isVirtual (c : Call) : Bool :=
  match c.kind with
  | .virtual | .interface => true
  | .static | .special => false

end Call

/-! ## Assignments -/

/-- The right side of an assignment. -/
inductive Expr where
  | value (v : Value)
  | new (cls : String)
  | newArray (element : Ty)
  | cast (v : Value) (ty : Ty)
  | instanceField (base : Local) (field : Field)
  | staticField (field : Field)
  | arrayRead (base : Local) (index : Value)
  | call (c : Call)
  | this
  | parameter (index : Nat)
  | caughtException
  | other
  deriving DecidableEq

/-- The left side of an assignment. -/
inductive Place where
  | var (l : Local)
  | instanceField (base : Local) (field : Field)
  | staticField (field : Field)
  | arrayWrite (base : Local) (index : Value)
  deriving DecidableEq

/-- The declared type of what is assigned. -/
def Place.ty : Place → Ty
  | var l => l.ty
  | instanceField _ f | staticField f => f.ty
  | arrayWrite base _ => base.ty.element

/-! ## Statements -/

inductive Stmt where
  | assign (lhs : Place) (rhs : Expr)
  | call (c : Call)
  | ret (v : Option Value)
  | other
  deriving DecidableEq

namespace Stmt

/-- The call in a statement. -/
def call? : Stmt → Option Call
  | call c | assign _ (.call c) => some c
  | _ => none

/-- The local that receives the result of a call. -/
def result? : Stmt → Option Local
  | assign (.var l) (.call _) => some l
  | _ => none

def isAssignment : Stmt → Bool
  | assign _ _ => true
  | _ => false

end Stmt

/-- A labelled statement. -/
structure Instr where
  label : Label
  stmt : Stmt
  deriving DecidableEq

end WidgetFlow
