import WidgetFlow.CommandLine.Run

/-!
# The command line
-/

namespace WidgetFlow.CommandLine

/-- What is at a path. What cannot be read counts as missing. -/
def entryAt (path : String) : IO Entry := do
  try return .file (String.fromUTF8? (← IO.FS.readBinFile path)) catch _ => return .missing

/-- The text of the user's own settings. -/
def userSettings : IO (Option String) := do
  let home ← match ← IO.getEnv "XDG_CONFIG_HOME" with
    | some dir => pure (some dir)
    | none => return (← IO.getEnv "HOME").map (· ++ "/.config")
  match home with
  | some dir => return (← entryAt (dir ++ "/widgetflow/config.json")).text?
  | none => return none

/-- The paths that a run looks at. -/
def pathsOf (args : List String) : List String :=
  match Arguments.parse args with
  | .run o => o.project :: o.config.toList
  | _ => []

/-- The files at some paths. -/
def environment (paths : List String) : IO Environment := do
  let entries ← paths.mapM fun path => return (path, ← entryAt path)
  let user ← userSettings
  return { entry := fun path => ((entries.find? (·.1 == path)).map (·.2)).getD .missing, userSettings := user }

def usageText : String :=
  "usage: widgetflow [--config FILE] [--out FILE] [--json] [--quiet] [--strict] PROJECT"

/-- Prints a failure. -/
def fail (f : Failure) : IO UInt32 := do
  IO.eprintln s!"Error: {f.message}"
  return 1

end WidgetFlow.CommandLine

open WidgetFlow CommandLine in
def main (args : List String) : IO UInt32 := do
  match run (← environment (pathsOf args)) args with
  | .help =>
    IO.println usageText
    return 0
  | .version =>
    IO.println "widgetflow"
    return 0
  | .usage =>
    IO.eprintln usageText
    return 1
  | .failed f => fail f
  | .done out =>
    IO.print out.stdout
    match out.file with
    | some (path, text) =>
      try
        IO.FS.writeFile path text
        return 0
      catch _ => fail (.unwritable path)
    | none => return 0
