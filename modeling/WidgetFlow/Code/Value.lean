import WidgetFlow.Code.Ty

/-!
# Labels, locals, fields and values
-/

namespace WidgetFlow

open Std

/-! ## Labels -/

/-- The label of a statement: an id, and the place where the statement stands. -/
structure Label where
  id : String
  location : String
  deriving DecidableEq

namespace Label

instance : Ord Label := ⟨compareLex (compareOn Label.id) (compareOn Label.location)⟩

instance : TransOrd Label := inferInstanceAs (TransCmp (compareLex _ _))

instance : LawfulEqOrd Label where
  eq_of_compare {a b} h := by
    obtain ⟨h₁, h₂⟩ := compareLex_eq_eq.mp h
    have h₁ : a.id = b.id := LawfulEqCmp.eq_of_compare h₁
    have h₂ : a.location = b.location := LawfulEqCmp.eq_of_compare h₂
    cases a; cases b; simp_all

/-- A label whose place is not known. -/
def unplaced (id : String) : Label := ⟨id, "UNKNOWN"⟩

/-- The label of the statement at a position of a method. -/
def ofStmt (signature : String) (index : Nat) : Label :=
  ⟨s!"stmt_{index}@{signature}", signature⟩

def withSuffix (l : Label) (suffix : String) : Label :=
  { l with id := l.id ++ suffix }

def text (l : Label) : String := l.id

end Label

/-! ## Locals and fields -/

/-- A local variable. Its name is meant to be unique in the whole program. -/
structure Local where
  name : String
  ty : Ty
  deriving DecidableEq

namespace Local

instance : Ord Local := ⟨compareLex (compareOn Local.name) (compareOn Local.ty)⟩

instance : TransOrd Local := inferInstanceAs (TransCmp (compareLex _ _))

instance : LawfulEqOrd Local where
  eq_of_compare {a b} h := by
    obtain ⟨h₁, h₂⟩ := compareLex_eq_eq.mp h
    have h₁ : a.name = b.name := LawfulEqCmp.eq_of_compare h₁
    have h₂ : a.ty = b.ty := LawfulEqCmp.eq_of_compare h₂
    cases a; cases b; simp_all

def text (l : Local) : String :=
  s!"{l.name}: {l.ty.text}"

end Local

/-- A field of a class; the object that holds it does not matter. -/
structure Field where
  owner : String
  name : String
  ty : Ty
  deriving DecidableEq

def Field.text (f : Field) : String :=
  s!"<{f.owner}: {f.ty.text} {f.name}>"

/-! ## Values -/

/-- An operand of a call or the right side of a plain assignment. -/
inductive Value where
  | var (l : Local)
  | int (n : Int)
  | str (s : String)
  | null
  | other (ty : Ty)
  deriving DecidableEq

namespace Value

/-- The declared type of a value. -/
def ty : Value → Ty
  | var l => l.ty
  | int _ => .int
  | str _ => .ref "java.lang.String"
  | null => .null
  | other t => t

def var? : Value → Option Local
  | var l => some l
  | _ => none

def int? : Value → Option Int
  | int n => some n
  | _ => none

def text : Value → String
  | var l => l.name
  | int n => s!"{n}"
  | str s => s!"\"{s}\""
  | null => "null"
  | other t => s!"<{t.text} constant>"

def rank : Value → Nat
  | var _ => 0 | int _ => 1 | str _ => 2 | null => 3 | other _ => 4

instance : Ord Value where
  compare
    | var a, var b => compare a b
    | int a, int b => compare a b
    | str a, str b => compare a b
    | other a, other b => compare a b
    | a, b => compare a.rank b.rank

end Value

end WidgetFlow
