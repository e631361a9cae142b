import Unmask.Dispatch
import Unmask.Logging

/-!
# Arguments

The arguments of the program: a path and options. An option may be given once, under its long name
or in a group of letters; its value stands behind it or is the next argument. Two dashes alone end
the options. Asking for help or for the version ends the reading.
-/
namespace Unmask

inductive ReportFormat where
  | human
  | json
  deriving DecidableEq, Repr

def ReportFormat.name : ReportFormat → String
  | .human => "human"
  | .json => "json"

/-- What the program is asked to do with a file. -/
structure Invocation where
  path : String
  selection : Selection
  /-- Where the result is written; to the standard output if absent. -/
  output : Option String
  skipScan : Bool
  format : ReportFormat
  log : LogSettings
  deriving DecidableEq

inductive Command where
  | unmask (i : Invocation)
  | help
  | version
  deriving DecidableEq

/-- Options with a value. -/
inductive Setting where
  | selection | output | logFormat | logFilter | format
  deriving DecidableEq

def Setting.all : List Setting := [.selection, .output, .logFormat, .logFilter, .format]

def Setting.name : Setting → String
  | .selection => "type"
  | .output => "output"
  | .logFormat => "log-format"
  | .logFilter => "log-filter"
  | .format => "format"

def Setting.letter? : Setting → Option Char
  | .selection => some 't'
  | .output => some 'o'
  | _ => none

/-- Options without a value. -/
inductive Switch where
  | skipScan | debug | showExpected
  deriving DecidableEq

def Switch.all : List Switch := [.skipScan, .debug, .showExpected]

def Switch.name : Switch → String
  | .skipScan => "skip-scan"
  | .debug => "debug"
  | .showExpected => "show-expected"

def Switch.letter? : Switch → Option Char
  | .skipScan => some 's'
  | .debug => some 'd'
  | .showExpected => none

inductive Flag where
  | setting (s : Setting)
  | switch (s : Switch)
  | help
  | version

namespace Flag

def ofName? (name : String) : Option Flag :=
  if name == "help" then some .help
  else if name == "version" then some .version
  else
    ((Setting.all.find? fun s => s.name == name).map setting).or
      ((Switch.all.find? fun s => s.name == name).map switch)

def ofLetter? (c : Char) : Option Flag :=
  if c == 'h' then some .help
  else if c == 'V' then some .version
  else
    ((Setting.all.find? fun s => s.letter? == some c).map setting).or
      ((Switch.all.find? fun s => s.letter? == some c).map switch)

end Flag

inductive UsageError where
  | unknownArgument (text : String)
  | repeated (name : String)
  | missingValue (name : String)
  | unwantedValue (name : String)
  | invalidValue (name value : String)
  | missingPath
  deriving DecidableEq

def UsageError.message : UsageError → String
  | .unknownArgument text => s!"unexpected argument '{text}' found"
  | .repeated name => s!"the argument '--{name}' cannot be used multiple times"
  | .missingValue name => s!"a value is required for '--{name}' but none was supplied"
  | .unwantedValue name => s!"unexpected value for '--{name}' found; no more were expected"
  | .invalidValue name value => s!"invalid value '{value}' for '{name}'"
  | .missingPath => "the required argument <PATH> was not provided"

/-- What has been given so far. -/
structure Given where
  path : Option String
  values : List (Setting × String)
  switches : List Switch

namespace Given

def nothing : Given := ⟨none, [], []⟩

/-- Whether a setting may have a value. -/
def isValid : Setting → String → Bool
  | .selection, _ => true
  | .output, value => value != ""
  | .logFormat, value => (LogFormat.ofText? value).isSome
  | .logFilter, _ => true
  | .format, value => value == ReportFormat.human.name || value == ReportFormat.json.name

def set (g : Given) (s : Setting) (value : String) : Except UsageError Given :=
  if (g.values.lookup s).isSome then .error (.repeated s.name)
  else if isValid s value then .ok { g with values := (s, value) :: g.values }
  else .error (.invalidValue ("--" ++ s.name) value)

def turnOn (g : Given) (s : Switch) : Except UsageError Given :=
  if g.switches.contains s then .error (.repeated s.name)
  else .ok { g with switches := s :: g.switches }

def take (g : Given) (text : String) : Except UsageError Given :=
  if g.path.isSome then .error (.unknownArgument text)
  else if text == "" then .error (.invalidValue "<PATH>" text)
  else .ok { g with path := some text }

def log (g : Given) : LogSettings :=
  { filter := g.values.lookup .logFilter
    format := ((g.values.lookup .logFormat).bind LogFormat.ofText?).getD .compact
    debug := g.switches.contains .debug
    showExpected := g.switches.contains .showExpected }

/-- The arguments as a whole; a path is needed, all else has a default. -/
def finish (g : Given) : Except UsageError Invocation :=
  match g.path with
  | none => .error .missingPath
  | some path =>
    .ok { path
          selection := ((g.values.lookup .selection).map Selection.ofText).getD .auto
          output := g.values.lookup .output
          skipScan := g.switches.contains .skipScan
          format := if g.values.lookup .format == some "json" then .json else .human
          log := g.log }

end Given

/-- Where reading stands after an argument. -/
inductive Progress where
  | go (g : Given)
  /-- The value of a setting has to follow. -/
  | wait (g : Given) (s : Setting)
  | stop (c : Command)

namespace Command

/-- What precedes and what follows the first equals sign, if there is one. -/
def splitValue (cs : List Char) : List Char × Option (List Char) :=
  match cs.dropWhile (· != '=') with
  | [] => (cs, none)
  | _ :: value => (cs.takeWhile (· != '='), some value)

/-- A long option, which may have a value after an equals sign. -/
def readLong (g : Given) (cs : List Char) : Except UsageError Progress :=
  let (name, value) := splitValue cs
  let name := String.ofList name
  match Flag.ofName? name, value with
  | none, _ => .error (.unknownArgument ("--" ++ name))
  | some (.setting s), none => .ok (.wait g s)
  | some (.setting s), some value => (g.set s (String.ofList value)).map Progress.go
  | some _, some _ => .error (.unwantedValue name)
  | some (.switch s), none => (g.turnOn s).map Progress.go
  | some .help, none => .ok (.stop .help)
  | some .version, none => .ok (.stop .version)

/-- A value in a group of letters, which may stand after an equals sign. -/
def attached (cs : List Char) : String :=
  match cs with
  | '=' :: value => String.ofList value
  | value => String.ofList value

/-- A group of letters. What follows the letter of a setting is its value. -/
def readLetters (g : Given) : List Char → Except UsageError Progress
  | [] => .ok (.go g)
  | c :: rest =>
    match Flag.ofLetter? c with
    | none => .error (.unknownArgument (String.ofList ['-', c]))
    | some (.setting s) =>
      if rest.isEmpty then .ok (.wait g s) else (g.set s (attached rest)).map Progress.go
    | some (.switch s) =>
      match g.turnOn s with
      | .ok g => readLetters g rest
      | .error e => .error e
    | some .help => .ok (.stop .help)
    | some .version => .ok (.stop .version)

def readPlain (g : Given) (args : List String) : Except UsageError Command := do
  return .unmask (← (← args.foldlM Given.take g).finish)

/-- Reads arguments; `waiting` is a setting whose value has to come first. -/
def read (g : Given) (waiting : Option Setting) : List String → Except UsageError Command
  | [] =>
    match waiting with
    | some s => .error (.missingValue s.name)
    | none => readPlain g []
  | arg :: rest =>
    match arg.toList, waiting with
    | '-' :: _ :: _, some s => .error (.missingValue s.name)
    | _, some s => do read (← g.set s arg) none rest
    | ['-', '-'], none => readPlain g rest
    | '-' :: '-' :: cs, none => do proceed (← readLong g cs) rest
    | '-' :: c :: cs, none => do proceed (← readLetters g (c :: cs)) rest
    | _, none => do read (← g.take arg) none rest
where
  proceed (p : Progress) (rest : List String) : Except UsageError Command :=
    match p with
    | .go g => read g none rest
    | .wait g s => read g (some s) rest
    | .stop c => .ok c

def parse (args : List String) : Except UsageError Command := read Given.nothing none args

end Command
end Unmask
