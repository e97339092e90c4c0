/-!
# Arguments

`Arguments.parse` reads the arguments of the command line from left to right: flags and options with values, long or
short, short ones also in a row, and the path of the project. After `--` everything is a path.
-/

namespace WidgetFlow.CommandLine

inductive Flag where
  | json | quiet | strict | debug
  deriving DecidableEq

/-- The options that take a value. -/
inductive Setting where
  | config | out
  deriving DecidableEq

/-- What an option asks for. -/
inductive Switch where
  | flag (f : Flag)
  | setting (s : Setting)
  | help | version

def long? (name : String) : Option Switch :=
  match name with
  | "config" => some (.setting .config)
  | "out" => some (.setting .out)
  | "json" => some (.flag .json)
  | "quiet" => some (.flag .quiet)
  | "strict" => some (.flag .strict)
  | "debug" => some (.flag .debug)
  | "help" => some .help
  | "version" => some .version
  | _ => none

def short? : Char → Option Switch
  | 'c' => some (.setting .config)
  | 'o' => some (.setting .out)
  | 'j' => some (.flag .json)
  | 'q' => some (.flag .quiet)
  | 's' => some (.flag .strict)
  | 'h' => some .help
  | 'V' => some .version
  | _ => none

/-- What was read so far. -/
structure Arguments where
  project : Option String := none
  flags : List Flag := []
  /-- The options that occurred, with a value or without. -/
  settings : List Setting := []
  values : List (Setting × String) := []
  /-- The option that waits for its value. -/
  waiting : Option Setting := none
  /-- Only paths may follow. -/
  pathsOnly : Bool := false

/-- A complete command line. -/
structure Options where
  project : String
  config : Option String
  out : Option String
  json : Bool
  quiet : Bool
  strict : Bool
  debug : Bool
  deriving DecidableEq

/-- What the arguments ask for. -/
inductive Request where
  | run (o : Options)
  | help | version
  | invalid
  deriving DecidableEq

/-- Why reading ends early. -/
inductive Stop where
  | help | version | invalid

def Stop.request : Stop → Request
  | help => .help
  | version => .version
  | invalid => .invalid

namespace Arguments

variable (a : Arguments)

/-- Gives a value to an option. -/
def setValue (s : Setting) (value : String) : Arguments :=
  { a with values := a.values ++ [(s, value)], waiting := none }

/-- An option that takes a value, with its value if that is given at once. Equality signs before such a value are not
part of it. -/
def addSetting (s : Setting) (value : Option (List Char)) : Arguments :=
  let a := { a with settings := a.settings ++ [s] }
  match value with
  | some v => a.setValue s (String.ofList (v.dropWhile (· = '=')))
  | none => { a with waiting := some s }

def addFlag (f : Flag) : Arguments := { a with flags := a.flags ++ [f], waiting := none }

/-- A long option: a name, and a value after an equality sign. A flag ignores the value. -/
def addLong (cs : List Char) : Except Stop Arguments :=
  let name := cs.takeWhile (· ≠ '=')
  let value := match cs.dropWhile (· ≠ '=') with
    | [] => none
    | _ :: v => some v
  match long? (String.ofList name) with
  | some (.setting s) => .ok (a.addSetting s value)
  | some (.flag f) => .ok (a.addFlag f)
  | some .help => .error .help
  | some .version => .error .version
  | none => .error .invalid

/-- Short options in a row. What follows an option that takes a value is its value. -/
def addShorts (a : Arguments) : List Char → Except Stop Arguments
  | [] => .ok a
  | c :: cs =>
    match short? c with
    | some (.setting s) => .ok (a.addSetting s (if cs.isEmpty then none else some cs))
    | some (.flag f) => addShorts (a.addFlag f) cs
    | some .help => .error .help
    | some .version => .error .version
    | none => .error .invalid

/-- The path of the project. There is only one. -/
def addPath (path : String) : Except Stop Arguments :=
  if a.project.isSome then .error .invalid else .ok { a with project := some path }

/-- The next argument. -/
def step (arg : String) : Except Stop Arguments :=
  if a.pathsOnly then a.addPath arg
  else match arg.toList with
    | ['-', '-'] => .ok { a with pathsOnly := true }
    | '-' :: '-' :: cs => a.addLong (cs.dropWhile (· = '-'))
    | '-' :: c :: cs => a.addShorts (c :: cs)
    | _ =>
      match a.waiting with
      | some s => .ok (a.setValue s arg)
      | none => a.addPath arg

def value? (s : Setting) : Option String :=
  (a.values.find? (·.1 = s)).map (·.2)

/-- No flag and no option may occur twice, and each option has its value. -/
def isComplete : Bool :=
  a.flags.eraseDups = a.flags && a.settings.eraseDups = a.settings && a.settings.all fun s => (a.value? s).isSome

/-- The command line that was read. -/
def finish : Request :=
  match a.project with
  | some project =>
    if !a.isComplete then .invalid
    else .run {
      project
      config := a.value? .config
      out := a.value? .out
      json := a.flags.contains .json
      quiet := a.flags.contains .quiet
      strict := a.flags.contains .strict
      debug := a.flags.contains .debug }
  | none => .invalid

def parse (args : List String) : Request :=
  match args.foldlM step {} with
  | .ok a => a.finish
  | .error stop => stop.request

end Arguments

end WidgetFlow.CommandLine
