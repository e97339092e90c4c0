/-!
# Declared types

A type is a base type with a number of array dimensions. Types are ordered by dimensions first, so that every array
type comes after every other type, and then by base type.
-/

namespace WidgetFlow

open Std

/-- A type that is no array. -/
inductive Ty.Base where
  | int | long | short | byte | char | float | double | boolean | void | null
  | ref (name : String)
  deriving DecidableEq

/-- The declared type of a local, a field or a parameter. -/
structure Ty where
  base : Ty.Base
  dims : Nat
  deriving DecidableEq

namespace Ty

/-! ## Base types -/

/-- The position of a base type in the order of types. -/
def Base.rank : Base → Nat
  | .int => 0 | .long => 1 | .short => 2 | .byte => 3 | .char => 4 | .float => 5 | .double => 6
  | .boolean => 7 | .void => 8 | .null => 9 | .ref _ => 10

/-- The name of a class type, empty for all others. -/
def Base.refName : Base → String
  | .ref name => name
  | _ => ""

def Base.text : Base → String
  | .int => "int" | .long => "long" | .short => "short" | .byte => "byte" | .char => "char"
  | .float => "float" | .double => "double" | .boolean => "boolean" | .void => "void" | .null => "null_type"
  | .ref name => name

instance : Ord Base := ⟨compareLex (compareOn Base.rank) (compareOn Base.refName)⟩

instance : TransOrd Base := inferInstanceAs (TransCmp (compareLex _ _))

instance : LawfulEqOrd Base where
  eq_of_compare {a b} h := by
    obtain ⟨h₁, h₂⟩ := compareLex_eq_eq.mp h
    have h₁ : a.rank = b.rank := LawfulEqCmp.eq_of_compare h₁
    have h₂ : a.refName = b.refName := LawfulEqCmp.eq_of_compare h₂
    cases a <;> cases b <;> simp_all [Base.rank, Base.refName]

/-! ## Types -/

def int : Ty := ⟨.int, 0⟩

def null : Ty := ⟨.null, 0⟩

/-- The type of the objects of a class. -/
def ref (name : String) : Ty := ⟨.ref name, 0⟩

instance : Ord Ty := ⟨compareLex (compareOn Ty.dims) (compareOn Ty.base)⟩

instance : TransOrd Ty := inferInstanceAs (TransCmp (compareLex _ _))

instance : LawfulEqOrd Ty where
  eq_of_compare {a b} h := by
    obtain ⟨h₁, h₂⟩ := compareLex_eq_eq.mp h
    have h₁ : a.dims = b.dims := LawfulEqCmp.eq_of_compare h₁
    have h₂ : a.base = b.base := LawfulEqCmp.eq_of_compare h₂
    cases a; cases b; simp_all

def isArray (t : Ty) : Bool :=
  t.dims != 0

/-- The element type of an array type, every other type itself. -/
def element (t : Ty) : Ty :=
  { t with dims := t.dims - 1 }

/-- The innermost element type of an array type, every other type itself. -/
def innermost (t : Ty) : Ty :=
  { t with dims := 0 }

/-- Values of these types can be objects of the user interface or resource ids. -/
def isTracked (t : Ty) : Bool :=
  match t.base with
  | .int | .ref _ => true
  | _ => false

/-- The class of a class type. -/
def className? (t : Ty) : Option String :=
  match t with
  | ⟨.ref name, 0⟩ => some name
  | _ => none

def text (t : Ty) : String :=
  t.base.text ++ String.join (List.replicate t.dims "[]")

end Ty

end WidgetFlow
