import WidgetFlow.Json.Basic

/-!
# From JSON to other types

A record is an object in which no known name is repeated, or an array of its fields in order; unknown names are
ignored, and so is what they stand for. A choice is its name, or an object whose one member has its name and its data.
A dictionary keeps the last of several members of one name.
-/

namespace WidgetFlow.Json

open Spelling

/-! ## Simple values -/

def string? : Json → Option String
  | string spelling => text? spelling
  | _ => none

def bool? : Json → Option Bool
  | bool b => some b
  | _ => none

def int? : Json → Option Int
  | number spelling => integer? spelling
  | _ => none

/-- An integer of 64 bits. -/
def int64? (j : Json) : Option Int := j.int?.filter Decimal.isInt64

/-- A natural number below a limit. -/
def natBelow? (limit : Nat) (j : Json) : Option Nat :=
  (j.int?.filter fun n : Int => 0 ≤ n && n < (limit : Int)).map Int.toNat

/-- A position or an index. -/
def nat64? : Json → Option Nat := natBelow? 0x10000000000000000

def nat32? : Json → Option Nat := natBelow? 0x100000000

/-! ## Lists and dictionaries -/

def items? : Json → Option (List Json)
  | arr items => some items
  | _ => none

def list? {α : Type} (d : Json → Option α) (j : Json) : Option (List α) := do
  (← j.items?).mapM d

/-- A value, or nothing for `null`. -/
def nullable? {α : Type} (d : Json → Option α) : Json → Option (Option α)
  | null => some none
  | j => (d j).map some

/-- The members of a dictionary, the names being read by `key`. -/
def dict? {κ α : Type} (key : String → Option κ) (d : Json → Option α) : Json → Option (List (κ × α))
  | object members => members.mapM fun (spelling, j) => do
    let k ← key spelling
    let a ← d j
    return (k, a)
  | _ => none

/-! ## Records -/

/-- The fields of a record by their names. -/
structure Record where
  fields : List (String × Json)

/-- A record with fields of these names. In an array, the last `omissible` fields may be missing. -/
def record? (j : Json) (names : List String) (omissible : Nat := 0) : Option Record :=
  match j with
  | arr items =>
    if names.length ≤ items.length + omissible && items.length ≤ names.length then some ⟨names.zip items⟩ else none
  | j => do
    let members ← dict? text? some j
    if names.all fun n => (members.filter (·.1 == n)).length ≤ 1 then some ⟨members⟩ else none

namespace Record

variable {α : Type} (r : Record) (name : String)

def get? : Option Json := (r.fields.find? (·.1 == name)).map (·.2)

/-- A field that must be there. -/
def field? (d : Json → Option α) : Option α := do
  d (← r.get? name)

/-- A field that may be missing or `null`. -/
def optional? (d : Json → Option α) : Option (Option α) :=
  match r.get? name with
  | some v => nullable? d v
  | none => some none

/-- A field that has a default. -/
def defaulted? (default : α) (d : Json → Option α) : Option α :=
  match r.get? name with
  | some v => d v
  | none => some default

end Record

/-! ## Choices -/

/-- The name of a choice and its data, if it has any. -/
def variant? : Json → Option (String × Option Json)
  | string spelling => (text? spelling).map (·, none)
  | object [(spelling, j)] => (text? spelling).map (·, some j)
  | _ => none

/-- The name of a choice without data. -/
def plain? (j : Json) : Option String := do
  match ← j.variant? with
  | (name, none) | (name, some null) => some name
  | _ => none

/-- The one of a list of choices without data that the value names. -/
def choice? {α : Type} (all : List α) (name : α → String) (j : Json) : Option α := do
  let s ← j.plain?
  all.find? (name · == s)

end WidgetFlow.Json
