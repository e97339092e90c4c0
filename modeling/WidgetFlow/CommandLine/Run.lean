import WidgetFlow.CommandLine.Arguments
import WidgetFlow.Format.Report
import WidgetFlow.Format.Settings
import WidgetFlow.Json.Printer
import WidgetFlow.Json.Reader
import WidgetFlow.Json.Whole
import WidgetFlow.Settings.Standard
import WidgetFlow.Solution.Fixpoint

/-!
# The program

From the arguments and the files to what is printed and written. The settings come from the file on the command line,
else from the user's own file if all of it can be read, else they are the standard ones.
-/

namespace WidgetFlow.CommandLine

/-! ## Files -/

/-- What is at a path. A file that is no text has none. -/
inductive Entry where
  | missing
  | directory
  | file (text : Option String)

def Entry.isFile : Entry → Bool
  | file _ => true
  | _ => false

def Entry.text? : Entry → Option String
  | file text => text
  | _ => none

/-- The files that the program can see. -/
structure Environment where
  entry : String → Entry
  /-- The text of the user's own settings. -/
  userSettings : Option String

/-! ## Failures -/

inductive Failure where
  | unreadableSettings (path : String)
  | invalidSettings
  | invalidProject (path : String)
  | fault (f : Fault)
  | unwritable (path : String)

def Failure.message : Failure → String
  | unreadableSettings path => s!"Could not read configuration file {path}"
  | invalidSettings => "Parsing of the configuration file failed"
  | invalidProject path => s!"Parsing of the project file {path} failed"
  | fault f => f.message
  | unwritable path => s!"Writing to output path {path} failed"

/-! ## Input -/

/-- The settings in a file. -/
def settingsAt (e : Environment) (path : String) : Except Failure Settings :=
  match (e.entry path).text? with
  | some text =>
    match (Json.read? text).bind Settings.ofJson? with
    | some s => .ok s
    | none => .error .invalidSettings
  | none => .error (.unreadableSettings path)

/-- The user's own settings, if every part of them can be read, else the standard ones. -/
def usualSettings (e : Environment) : Except Failure Settings :=
  match (e.userSettings.bind Json.read?).filter Json.isReadable with
  | some j =>
    match Settings.ofJson? j.lastWins with
    | some s => .ok s
    | none => .error .invalidSettings
  | none => .ok .standard

def settings (e : Environment) (o : Options) : Except Failure Settings := do
  let s ← match o.config with
    | some path => settingsAt e path
    | none => usualSettings e
  return if o.strict then { s with strict := true } else s

def project (e : Environment) (path : String) : Except Failure Project :=
  match ((e.entry path).text?.bind Json.read?).bind Project.ofJson? with
  | some p => .ok p
  | none => .error (.invalidProject path)

/-! ## Output -/

/-- What is printed, and what is written to a file. -/
structure Output where
  stdout : String
  file : Option (String × String)

/-- Lines as text, each with its end. -/
def unlines (lines : List String) : String :=
  String.join (lines.map (· ++ "\n"))

def report (o : Options) (s : Solver) : Output :=
  if o.debug then ⟨unlines s.outlines, none⟩
  else
    let log := if o.quiet then [] else Log.withDebugCounts (s.flowgraph.log ++ s.log)
    let result := (if o.json then s.summary.toJson.pretty else s.summary.text) ++ "\n"
    let lines := unlines (log.map (·.line))
    match o.out with
    | some path => ⟨lines, some (path, result)⟩
    | none => ⟨lines ++ result, none⟩

def analyzed (e : Environment) (o : Options) : Except Failure Output := do
  let settings ← settings e o
  let project ← project e o.project
  match analyze { project, settings } with
  | .ok s => return report o s
  | .error f => throw (.fault f)

/-- How a run ends: with a text of the argument parser, with arguments that make no sense, or with an output or a
failure. -/
inductive Outcome where
  | help | version
  | usage
  | done (o : Output)
  | failed (f : Failure)

/-- The project and the settings on the command line must be files. -/
def run (e : Environment) (args : List String) : Outcome :=
  match Arguments.parse args with
  | .help => .help
  | .version => .version
  | .invalid => .usage
  | .run o =>
    if (e.entry o.project).isFile && o.config.all fun path => (e.entry path).isFile then
      match analyzed e o with
      | .ok out => .done out
      | .error f => .failed f
    else .usage

end WidgetFlow.CommandLine
