import WidgetFlow.Code.Program
import WidgetFlow.Json.Decode

/-!
# Programs as JSON
-/

namespace WidgetFlow

open Std

/-! ## Types and labels -/

namespace Ty

/-- The name of a base type that is no class. -/
def Base.tag : Base → String
  | .int => "Int" | .long => "Long" | .short => "Short" | .byte => "Byte" | .char => "Char" | .float => "Float"
  | .double => "Double" | .boolean => "Boolean" | .void => "Void" | .null => "Null" | .ref _ => "Ref"

def Base.primitives : List Base :=
  [.int, .long, .short, .byte, .char, .float, .double, .boolean, .void, .null]

def Base.toJson : Base → Json
  | .ref name => .tagged "Ref" (.str name)
  | b => .str b.tag

/-- The array type of an element type. -/
def arrayOf (t : Ty) : Ty := { t with dims := t.dims + 1 }

def toJson (t : Ty) : Json :=
  t.dims.repeat (Json.tagged "Array") t.base.toJson

/-- A base type that is no class. -/
def primitiveOfJson? (j : Json) : Option Ty :=
  (Json.choice? Base.primitives Base.tag j).map (⟨·, 0⟩)

def ofJson? : Json → Option Ty
  | .object [(spelling, j)] =>
    match Json.Spelling.text? spelling with
    | some "Ref" => j.string?.map ref
    | some "Array" => (ofJson? j).map arrayOf
    | _ => primitiveOfJson? (.object [(spelling, j)])
  | j => primitiveOfJson? j

end Ty

namespace Label

def toJson (l : Label) : Json := .obj [("id", .str l.id), ("location", .str l.location)]

def ofJson? (j : Json) : Option Label := do
  let r ← j.record? ["id", "location"]
  return ⟨← r.field? "id" Json.string?, ← r.field? "location" Json.string?⟩

end Label

/-! ## Values -/

namespace Local

def toJson (l : Local) : Json := .obj [("name", .str l.name), ("ty", l.ty.toJson)]

def ofJson? (j : Json) : Option Local := do
  let r ← j.record? ["name", "ty"]
  return ⟨← r.field? "name" Json.string?, ← r.field? "ty" Ty.ofJson?⟩

end Local

namespace Field

def toJson (f : Field) : Json := .obj [("class", .str f.owner), ("name", .str f.name), ("ty", f.ty.toJson)]

def ofJson? (j : Json) : Option Field := do
  let r ← j.record? ["class", "name", "ty"]
  return ⟨← r.field? "class" Json.string?, ← r.field? "name" Json.string?, ← r.field? "ty" Ty.ofJson?⟩

end Field

namespace Value

def toJson : Value → Json
  | var l => .tagged "Local" l.toJson
  | int n => .tagged "IntConstant" (.int n)
  | str s => .tagged "StringConstant" (.str s)
  | null => .str "Null"
  | other t => .tagged "OtherConstant" t.toJson

def ofJson? (j : Json) : Option Value := do
  match ← j.variant? with
  | ("Local", some d) => (Local.ofJson? d).map var
  | ("IntConstant", some d) => d.int64?.map int
  | ("StringConstant", some d) => d.string?.map str
  | ("Null", none) | ("Null", some .null) => some null
  | ("OtherConstant", some d) => (Ty.ofJson? d).map other
  | _ => none

end Value

/-! ## Calls -/

namespace MethodRef

def toJson (m : MethodRef) : Json :=
  .obj [("class", .str m.owner), ("name", .str m.name), ("params", .list Ty.toJson m.params), ("ret", m.ret.toJson)]

def ofJson? (j : Json) : Option MethodRef := do
  let r ← j.record? ["class", "name", "params", "ret"]
  return {
    owner := ← r.field? "class" Json.string?
    name := ← r.field? "name" Json.string?
    params := ← r.field? "params" (Json.list? Ty.ofJson?)
    ret := ← r.field? "ret" Ty.ofJson? }

end MethodRef

namespace CallKind

def text : CallKind → String
  | static => "Static" | special => "Special" | virtual => "Virtual" | interface => "Interface"

def all : List CallKind := [static, special, virtual, interface]

end CallKind

namespace Call

def toJson (c : Call) : Json :=
  .obj [("kind", .str c.kind.text), ("method", c.target.toJson), ("receiver", .opt Local.toJson c.receiver),
    ("args", .list Value.toJson c.args)]

def ofJson? (j : Json) : Option Call := do
  let r ← j.record? ["kind", "method", "receiver", "args"]
  return {
    kind := ← r.field? "kind" (Json.choice? CallKind.all CallKind.text)
    target := ← r.field? "method" MethodRef.ofJson?
    receiver := ← r.optional? "receiver" Local.ofJson?
    args := ← r.field? "args" (Json.list? Value.ofJson?) }

end Call

/-! ## Statements -/

/-- A field of the object in a local. -/
def instanceFieldToJson (base : Local) (field : Field) : Json :=
  .tagged "InstanceField" (.obj [("base", base.toJson), ("field", field.toJson)])

def instanceFieldOfJson? (j : Json) : Option (Local × Field) := do
  let r ← j.record? ["base", "field"]
  return (← r.field? "base" Local.ofJson?, ← r.field? "field" Field.ofJson?)

/-- An element of the array in a local. -/
def elementToJson (base : Local) (index : Value) : Json :=
  .obj [("base", base.toJson), ("index", index.toJson)]

def elementOfJson? (j : Json) : Option (Local × Value) := do
  let r ← j.record? ["base", "index"]
  return (← r.field? "base" Local.ofJson?, ← r.field? "index" Value.ofJson?)

namespace Expr

def toJson : Expr → Json
  | value v => .tagged "Immediate" v.toJson
  | new cls => .tagged "New" (.str cls)
  | newArray element => .tagged "NewArray" element.toJson
  | cast v ty => .tagged "Cast" (.obj [("value", v.toJson), ("ty", ty.toJson)])
  | instanceField base field => instanceFieldToJson base field
  | staticField field => .tagged "StaticField" field.toJson
  | arrayRead base index => .tagged "ArrayRead" (elementToJson base index)
  | call c => .tagged "Invoke" c.toJson
  | this => .str "This"
  | parameter index => .tagged "Parameter" (.nat index)
  | caughtException => .str "CaughtException"
  | other => .str "Other"

def castOfJson? (j : Json) : Option Expr := do
  let r ← j.record? ["value", "ty"]
  return .cast (← r.field? "value" Value.ofJson?) (← r.field? "ty" Ty.ofJson?)

def ofJson? (j : Json) : Option Expr := do
  match ← j.variant? with
  | ("Immediate", some d) => (Value.ofJson? d).map value
  | ("New", some d) => d.string?.map new
  | ("NewArray", some d) => (Ty.ofJson? d).map newArray
  | ("Cast", some d) => castOfJson? d
  | ("InstanceField", some d) => (instanceFieldOfJson? d).map fun (base, field) => instanceField base field
  | ("StaticField", some d) => (Field.ofJson? d).map staticField
  | ("ArrayRead", some d) => (elementOfJson? d).map fun (base, index) => arrayRead base index
  | ("Invoke", some d) => (Call.ofJson? d).map call
  | ("Parameter", some d) => d.nat64?.map parameter
  | ("This", none) | ("This", some .null) => some this
  | ("CaughtException", none) | ("CaughtException", some .null) => some caughtException
  | ("Other", none) | ("Other", some .null) => some other
  | _ => none

end Expr

namespace Place

def toJson : Place → Json
  | var l => .tagged "Local" l.toJson
  | instanceField base field => instanceFieldToJson base field
  | staticField field => .tagged "StaticField" field.toJson
  | arrayWrite base index => .tagged "ArrayWrite" (elementToJson base index)

def ofJson? (j : Json) : Option Place := do
  match ← j.variant? with
  | ("Local", some d) => (Local.ofJson? d).map var
  | ("InstanceField", some d) => (instanceFieldOfJson? d).map fun (base, field) => instanceField base field
  | ("StaticField", some d) => (Field.ofJson? d).map staticField
  | ("ArrayWrite", some d) => (elementOfJson? d).map fun (base, index) => arrayWrite base index
  | _ => none

end Place

namespace Stmt

def toJson : Stmt → Json
  | assign lhs rhs => .tagged "Assign" (.obj [("lhs", lhs.toJson), ("rhs", rhs.toJson)])
  | call c => .tagged "Invoke" c.toJson
  | ret v => .tagged "Return" (.opt Value.toJson v)
  | other => .str "Other"

def assignOfJson? (j : Json) : Option Stmt := do
  let r ← j.record? ["lhs", "rhs"]
  return .assign (← r.field? "lhs" Place.ofJson?) (← r.field? "rhs" Expr.ofJson?)

def ofJson? (j : Json) : Option Stmt := do
  match ← j.variant? with
  | ("Assign", some d) => assignOfJson? d
  | ("Invoke", some d) => (Call.ofJson? d).map call
  | ("Return", some d) => (Json.nullable? Value.ofJson? d).map ret
  | ("Other", none) | ("Other", some .null) => some other
  | _ => none

end Stmt

namespace Instr

def toJson (i : Instr) : Json := .obj [("tid", i.label.toJson), ("term", i.stmt.toJson)]

def ofJson? (j : Json) : Option Instr := do
  let r ← j.record? ["tid", "term"]
  return ⟨← r.field? "tid" Label.ofJson?, ← r.field? "term" Stmt.ofJson?⟩

end Instr

/-! ## Classes -/

namespace Method

def toJson (m : Method) : Json :=
  .obj [("class", .str m.owner), ("name", .str m.name), ("params", .list Ty.toJson m.params), ("ret", m.ret.toJson),
    ("is_static", .bool m.isStatic), ("is_abstract", .bool m.isAbstract), ("body", .list Instr.toJson m.body)]

def ofJson? (j : Json) : Option Method := do
  let r ← j.record? ["class", "name", "params", "ret", "is_static", "is_abstract", "body"]
  return {
    owner := ← r.field? "class" Json.string?
    name := ← r.field? "name" Json.string?
    params := ← r.field? "params" (Json.list? Ty.ofJson?)
    ret := ← r.field? "ret" Ty.ofJson?
    isStatic := ← r.field? "is_static" Json.bool?
    isAbstract := ← r.field? "is_abstract" Json.bool?
    body := ← r.field? "body" (Json.list? Instr.ofJson?) }

end Method

namespace Class

def toJson (c : Class) : Json :=
  .obj [("name", .str c.name), ("superclass", .opt .str c.superclass), ("interfaces", .strs c.interfaces),
    ("is_interface", .bool c.isInterface), ("is_abstract", .bool c.isAbstract),
    ("is_application", .bool c.isApplication), ("methods", .list Method.toJson c.methods)]

def ofJson? (j : Json) : Option Class := do
  let r ← j.record?
    ["name", "superclass", "interfaces", "is_interface", "is_abstract", "is_application", "methods"]
  return {
    name := ← r.field? "name" Json.string?
    superclass := ← r.optional? "superclass" Json.string?
    interfaces := ← r.field? "interfaces" (Json.list? Json.string?)
    isInterface := ← r.field? "is_interface" Json.bool?
    isAbstract := ← r.field? "is_abstract" Json.bool?
    isApplication := ← r.field? "is_application" Json.bool?
    methods := ← r.field? "methods" (Json.list? Method.ofJson?) }

end Class

namespace Program

def toJson (p : Program) : Json :=
  .obj [("classes", .obj (p.classes.toList.map fun (name, c) => (name, c.toJson)))]

def ofJson? (j : Json) : Option Program := do
  let r ← j.record? ["classes"]
  return ⟨.ofList (← r.field? "classes" (Json.dict? Json.Spelling.text? Class.ofJson?))⟩

end Program

end WidgetFlow
