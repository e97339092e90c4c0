import WidgetFlow.Json.Basic

/-!
# JSON as a whole

What a value says when all of it is read, and not only the parts that are asked for: every string must be a text and no
number may be too large. Of several members of one name the last counts.
-/

namespace WidgetFlow.Json

open Spelling

mutual

/-- Every part of the value can be read. -/
def isReadable : Json → Bool
  | null => true
  | bool _ => true
  | number spelling => isFinite spelling
  | string spelling => (text? spelling).isSome
  | arr items => areReadable items
  | object members => areReadableMembers members

def areReadable : List Json → Bool
  | [] => true
  | j :: js => isReadable j && areReadable js

def areReadableMembers : List (String × Json) → Bool
  | [] => true
  | (spelling, j) :: ms => (text? spelling).isSome && isReadable j && areReadableMembers ms

end

mutual

/-- The value in which of several members of one name only the last is left. -/
def lastWins : Json → Json
  | arr items => arr (lastWinsItems items)
  | object members => object (lastWinsMembers members)
  | j => j

def lastWinsItems : List Json → List Json
  | [] => []
  | j :: js => lastWins j :: lastWinsItems js

def lastWinsMembers : List (String × Json) → List (String × Json)
  | [] => []
  | (spelling, j) :: ms =>
    if ms.any fun m => text? m.1 == text? spelling then lastWinsMembers ms
    else (spelling, lastWins j) :: lastWinsMembers ms

end

end WidgetFlow.Json
