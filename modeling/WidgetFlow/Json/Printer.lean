import WidgetFlow.Json.Basic

/-!
# Writing JSON

`Json.compact` writes a value without blanks, `Json.pretty` over several lines with two blanks for each level.
-/

namespace WidgetFlow.Json

def quote (spelling : String) : String := "\"" ++ spelling ++ "\""

mutual

def compact : Json → String
  | null => "null"
  | bool b => if b then "true" else "false"
  | number spelling => spelling
  | string spelling => quote spelling
  | arr items => "[" ++ ",".intercalate (compactItems items) ++ "]"
  | object members => "\x7b" ++ ",".intercalate (compactMembers members) ++ "\x7d"

def compactItems : List Json → List String
  | [] => []
  | j :: js => compact j :: compactItems js

def compactMembers : List (String × Json) → List String
  | [] => []
  | (name, j) :: ms => (quote name ++ ":" ++ compact j) :: compactMembers ms

end

/-- A line break and the indentation of a level. -/
def newline (level : Nat) : String :=
  "\n" ++ String.join (List.replicate level "  ")

/-- Lines between brackets, one level in. -/
def block (open_ close : String) (level : Nat) (lines : List String) : String :=
  if lines.isEmpty then open_ ++ close
  else open_ ++ newline (level + 1) ++ ("," ++ newline (level + 1)).intercalate lines ++ newline level ++ close

mutual

def prettyAt (level : Nat) : Json → String
  | arr items => block "[" "]" level (prettyItems (level + 1) items)
  | object members => block "\x7b" "\x7d" level (prettyMembers (level + 1) members)
  | null => "null"
  | bool b => if b then "true" else "false"
  | number spelling => spelling
  | string spelling => quote spelling

def prettyItems (level : Nat) : List Json → List String
  | [] => []
  | j :: js => prettyAt level j :: prettyItems level js

def prettyMembers (level : Nat) : List (String × Json) → List String
  | [] => []
  | (name, j) :: ms => (quote name ++ ": " ++ prettyAt level j) :: prettyMembers level ms

end

def pretty (j : Json) : String := prettyAt 0 j

end WidgetFlow.Json
