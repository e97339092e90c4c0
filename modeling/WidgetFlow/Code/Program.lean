import WidgetFlow.Code.Stmt
import Std.Data.ExtTreeMap

/-!
# Methods, classes and programs
-/

namespace WidgetFlow

open Std

/-! ## Methods -/

/-- A method of a class. Methods without a body are abstract. -/
structure Method where
  owner : String
  name : String
  params : List Ty
  ret : Ty
  isStatic : Bool
  isAbstract : Bool
  body : List Instr
  deriving DecidableEq

namespace Method

def subSignature (m : Method) : String :=
  WidgetFlow.subSignature m.name m.params m.ret

def signature (m : Method) : String :=
  s!"<{m.owner}: {m.subSignature}>"

def isConstructor (m : Method) : Bool :=
  m.name == "<init>"

def isConcrete (m : Method) : Bool :=
  !m.isAbstract

/-- The local that holds the receiver. -/
def this? (m : Method) : Option Local :=
  m.body.findSome? fun i =>
    match i.stmt with
    | .assign (.var l) .this => some l
    | _ => none

/-- The local that holds a parameter. -/
def param? (m : Method) (index : Nat) : Option Local :=
  m.body.findSome? fun i =>
    match i.stmt with
    | .assign (.var l) (.parameter k) => if k = index then some l else none
    | _ => none

/-- The values that the method returns. -/
def returns (m : Method) : List Value :=
  m.body.filterMap fun i =>
    match i.stmt with
    | .ret v => v
    | _ => none

end Method

/-! ## Classes -/

/-- A class or an interface. Only the methods of application classes are analysed. -/
structure Class where
  name : String
  superclass : Option String
  interfaces : List String
  isInterface : Bool
  isAbstract : Bool
  isApplication : Bool
  methods : List Method
  deriving DecidableEq

namespace Class

/-- The first method of the class with this sub-signature. -/
def declared? (c : Class) (sub : String) : Option Method :=
  c.methods.find? (·.subSignature == sub)

/-- There can be objects of exactly this class. -/
def isConcrete (c : Class) : Bool :=
  !c.isInterface && !c.isAbstract

end Class

/-! ## Programs -/

/-- The classes of an application and of the framework, by name. -/
structure Program where
  classes : ExtTreeMap String Class

namespace Program

def class? (p : Program) (name : String) : Option Class :=
  p.classes[name]?

/-- The classes in the order of their keys. -/
def classList (p : Program) : List Class :=
  p.classes.toList.map (·.2)

def applicationClasses (p : Program) : List Class :=
  p.classList.filter (·.isApplication)

def isApplication (p : Program) (name : String) : Bool :=
  (p.class? name).any (·.isApplication)

/-- The methods of application classes that have a body. -/
def applicationMethods (p : Program) : List Method :=
  (p.applicationClasses.flatMap (·.methods)).filter (·.isConcrete)

/-- All methods of all classes. -/
def methods (p : Program) : List Method :=
  p.classList.flatMap (·.methods)

end Program

end WidgetFlow
