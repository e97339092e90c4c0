import WidgetFlow.Code.Value
import Std.Data.ExtTreeMap

/-!
# The log

Entries are ordered by text, level, place and source; an absent place or source comes first.
-/

namespace WidgetFlow.Log

open Std

inductive Level where
  | debug | error | info
  deriving DecidableEq

def Level.rank : Level → Nat
  | debug => 0 | error => 1 | info => 2

def Level.text : Level → String
  | debug => "DEBUG" | error => "ERROR" | info => "INFO"

/-- A message, where it belongs and which part of the analysis wrote it. -/
structure Entry where
  text : String
  level : Level
  location : Option Label
  source : Option String
  deriving DecidableEq

namespace Entry

instance : Ord Entry :=
  ⟨compareLex (compareOn Entry.text)
    (compareLex (compareOn fun e => e.level.rank)
      (compareLex (compareOn Entry.location) (compareOn Entry.source)))⟩

/-- The line that an entry is printed as. -/
def line (e : Entry) : String :=
  let origin := match e.source, e.location with
    | some source, some location => s!"{source} @ {location.text}: "
    | some source, none => s!"{source}: "
    | none, some location => s!"{location.text}: "
    | none, none => ""
  s!"{e.level.text}: {origin}{e.text}"

end Entry

/-- The number of debug entries of each source. -/
def debugCounts (entries : List Entry) : ExtTreeMap String Nat :=
  (entries.filter (·.level = .debug)).foldl
    (fun counts e => match e.source with
      | some source => counts.alter source fun n => some (n.getD 0 + 1)
      | none => counts)
    ∅

/-- The entries, followed by the number of debug entries of each source and of those without a source. -/
def withDebugCounts (entries : List Entry) : List Entry :=
  let sourced := (debugCounts entries).toList.map fun (source, n) =>
    { text := s!"Logged {n} debug log messages.", level := .info, location := none, source := some source : Entry }
  let general := (entries.filter fun e => e.level = .debug && e.source.isNone).length
  let unsourced := if general = 0 then [] else
    [{ text := s!"Logged {general} general debug log messages.", level := .info, location := none, source := none }]
  entries ++ sourced ++ unsourced

end WidgetFlow.Log
