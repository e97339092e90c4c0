import WidgetFlow.Json.Spelling

/-!
# JSON values

Strings, numbers and the names of members are kept as they are spelled, and objects keep their members in order,
repeated names included.
-/

namespace WidgetFlow

inductive Json where
  | null
  | bool (b : Bool)
  | number (spelling : String)
  | string (spelling : String)
  | arr (items : List Json)
  | object (members : List (String × Json))

namespace Json

open Spelling

/-- Stands for a value that cannot be read: no number is spelled like this. -/
def unreadable : Json := .number ""

/-! ## Making values -/

def int (n : Int) : Json := .number (toString n)

def nat (n : Nat) : Json := .int n

def str (s : String) : Json := .string (spell s)

/-- An object with members of these names. -/
def obj (members : List (String × Json)) : Json :=
  .object (members.map fun (name, j) => (spell name, j))

def strs (ss : List String) : Json := .arr (ss.map .str)

def nats (ns : List Nat) : Json := .arr (ns.map .nat)

/-- A value or `null`. -/
def opt {α : Type} (f : α → Json) : Option α → Json
  | some a => f a
  | none => .null

def list {α : Type} (f : α → Json) (as : List α) : Json := .arr (as.map f)

/-- A choice with data: an object with one member. -/
def tagged (name : String) (j : Json) : Json := .obj [(name, j)]

/-! ## Members -/

/-- The first member of a name, if the value is an object. -/
def get? (j : Json) (name : String) : Option Json :=
  match j with
  | object members => (members.find? fun (spelling, _) => text? spelling == some name).map (·.2)
  | _ => none

/-- The first member of a name, or `null`. -/
def get (j : Json) (name : String) : Json := (j.get? name).getD .null

end Json

end WidgetFlow
