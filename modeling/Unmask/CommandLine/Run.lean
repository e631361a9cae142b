import Unmask.CommandLine.Arguments
import Unmask.Disguise.BlankObf.Layers
import Unmask.Disguise.Fct
import Unmask.Disguise.Hyperion
import Unmask.Disguise.LzmaSpam
import Unmask.Disguise.Pyobfuscate
import Unmask.Disguise.Vare
import Unmask.Dispatch
import Unmask.Logging
import Unmask.Named
import Unmask.Text.Basic
import Unmask.Text.Utf8

/-!
# Running the program

The program reads a file, tries the built-in schemas on it in their order and writes what came out
of it: as a JSON document, or for runs without success as text with one block for each attempt. It
is defined over any place where files are kept, and one such place is a value: a directory of files
without further directories.
-/
namespace Unmask

namespace Registry

def known : List (String × Nat × Schema) :=
  [("hyperion", 1, Hyperion.schema), ("blank obf", 2, BlankObf.schema), ("fct", 1, Fct.schema),
    ("lzmaspam", 1, LzmaSpam.schema), ("vare", 1, Vare.schema),
    ("pyobfuscate", 1, Pyobfuscate.schema)]

/-- Adds schemas up to one whose name and version are taken, and tells of that one. -/
def registerEach (r : Registry) : List (String × Nat × Schema) → Registry × Option RegistryError
  | [] => (r, none)
  | (name, version, schema) :: rest =>
    match r.register name version schema with
    | (r, none) => registerEach r rest
    | (r, some error) => (r, some error)

def registerAll (r : Registry) : Registry × Option RegistryError := r.registerEach known

def builtin : Registry := (registerAll empty).1

end Registry

inductive FileError where
  | notFound
  | isDirectory
  | notDirectory
  | denied
  | other (message : String)
  deriving DecidableEq

def FileError.message : FileError → String
  | .notFound => "No such file or directory (os error 2)"
  | .isDirectory => "Is a directory (os error 21)"
  | .notDirectory => "Not a directory (os error 20)"
  | .denied => "Permission denied (os error 13)"
  | .other message => message

/-- The ways to read and to write a file at a path. -/
structure Files (m : Type → Type) where
  read : String → m (Except FileError Bytes)
  write : String → Bytes → m (Except FileError Unit)

structure Directory where
  files : Named Bytes

namespace Directory

/-- The names on a path; a dot and nothing at all stand for the directory itself. -/
def names (path : String) : List String :=
  (Text.splitOn '/' path).filter fun name => name != "" && name != "."

def endsInSlash (path : String) : Bool := path.toList.getLast? == some '/'

/-- Whether a path starts in the directory and ends with a name. -/
def isPlain (path name : String) : Bool :=
  path.toList.head? != some '/' && (Text.splitOn '/' path).getLast? == some name

def fileName (d : Directory) (path : String) : Except FileError String :=
  match names path with
  | [] => .error .isDirectory
  | name :: more =>
    if name == ".." then .error (if more.isEmpty then .isDirectory else .notFound)
    else if more.isEmpty && isPlain path name then .ok name
    else if (d.files.lookup name).isSome then .error .notDirectory
    else .error .notFound

def read (d : Directory) (path : String) : Except FileError Bytes := do
  match d.files.lookup (← d.fileName path) with
  | some contents => return contents
  | none => .error .notFound

/-- Replaces a file or adds one. No file is added under a name before a slash. -/
def write (d : Directory) (path : String) (contents : Bytes) : Except FileError Directory := do
  if endsInSlash path && (names path).length ≤ 1 then .error .isDirectory
  else
    let name ← d.fileName path
    return ⟨d.files.put name contents⟩

def asFiles : Files (StateM Directory) where
  read path := do return (← get).read path
  write path contents := do
    match (← get).write path contents with
    | .ok d =>
      set d
      return .ok ()
    | .error e => return .error e

end Directory

def Diagnostic.toJson (name : String) (d : Diagnostic) : Json :=
  .object [("name", .string name), ("value", .string d.display)]

def Attempt.toJson (a : Attempt) : Json :=
  .object [("schema", .string a.schema), ("kind", .string a.failure.kind.name),
    ("message", .string a.failure.message),
    ("diagnostics", .array (a.failure.diagnostics.map fun (name, d) => d.toJson name))]

def Unmasked.toJson (u : Unmasked) : Json :=
  .object [("succeeded", .bool true), ("schema", .string u.schema), ("output", .string u.output),
    ("attempts", .array (u.attempts.map Attempt.toJson))]

/-- The report of a run in which all attempts failed. -/
def Attempt.reportAll (attempts : List Attempt) : Json :=
  .object [("succeeded", .bool false), ("schema", .null), ("output", .null),
    ("attempts", .array (attempts.map Attempt.toJson))]

/-- A line without the carriage return at its end. -/
def dropReturn (line : List Char) : List Char :=
  if line.getLast? == some '\r' then line.dropLast else line

/-- The lines of a text. The last one counts only if it is not empty, and keeps a carriage
return. -/
def linesOf (s : String) : List String :=
  let rows := Text.splitChars '\n' s.toList
  let last := rows.getLast?.getD []
  (rows.dropLast.map dropReturn ++ if last.isEmpty then [] else [last]).map String.ofList

def ofLines (lines : List String) : String := String.join (lines.map (· ++ "\n"))

/-- The lines of a piece of evidence: its name, and indented what it says. -/
def Diagnostic.lines (name : String) (d : Diagnostic) : List String :=
  ("  " ++ name ++ ":") :: (linesOf d.display).map ("    " ++ ·)

/-- The block of an attempt, behind an empty line. -/
def Attempt.lines (a : Attempt) : List String :=
  ["", s!"[{a.schema}] {a.failure.kind.name}: {a.failure.message}"] ++
    a.failure.diagnostics.flatMap fun (name, d) => d.lines name

/-- The text for a run in which all attempts failed. -/
def Attempt.postmortem (attempts : List Attempt) : String :=
  ofLines (PipelineError.message (.allFailed attempts) :: attempts.flatMap Attempt.lines)

/-- The exit status of a run, and what it writes to the standard streams. -/
structure Outcome where
  exit : UInt8
  stdout : String
  stderr : String
  deriving DecidableEq

namespace Outcome

def success (stdout : String) : Outcome := ⟨0, stdout, ""⟩

def failed (message : String) : Outcome := ⟨1, "", message ++ "\n"⟩

def misused (e : UsageError) : Outcome :=
  ⟨2, "", ofLines [s!"error: {e.message}", "", "Usage: pydeobf [OPTIONS] <PATH>", "",
    "For more information, try '--help'."]⟩

end Outcome

namespace CommandLine

def version : String := "pydeobf 0.1.0"

/-- The help text, which lists a choice for each entry. -/
def help (entries : List Entry) : String :=
  ofLines (["Deobfuscates Python programs without running them", "",
    "Usage: pydeobf [OPTIONS] <PATH>", "",
    "Arguments:",
    "  <PATH>  Obfuscated Python file", "",
    "Options:",
    "  -t, --type <SCHEMAS>           Schemas to try: auto, or names such as hyperion,vare_1",
    "  -o, --output <FILE>            Writes the result to a file instead of standard output",
    "  -s, --skip-scan                Tries every selected schema, recognised or not",
    "  -d, --debug                    Lowers the default log filter to debug",
    "      --show-expected            Shows warnings that are part of normal operation",
    "      --log-format <LOG_FORMAT>  Log output format: json or compact",
    "      --log-filter <LOG_FILTER>  Log filter expression; takes precedence over --debug",
    "      --format <FORMAT>          Report format: human or json",
    "  -h, --help                     Print help",
    "  -V, --version                  Print version", "",
    "Schemas:"] ++ entries.map fun e => "  " ++ e.token)

def render (format : ReportFormat) (u : Unmasked) : String :=
  match format with
  | .human => u.output ++ "\n"
  | .json => u.toJson.text ++ "\n"

def allFailed (format : ReportFormat) (attempts : List Attempt) : Outcome :=
  match format with
  | .human => ⟨1, "", Attempt.postmortem attempts⟩
  | .json => ⟨1, (Attempt.reportAll attempts).text ++ "\n", ""⟩

variable {m : Type → Type} [Monad m]

/-- Writes a result to its place. -/
def deliver (files : Files m) (output : Option String) (rendered : String) : m Outcome := do
  match output with
  | none => return .success rendered
  | some path =>
    match ← files.write path (Text.Utf8.encode rendered) with
    | .ok () => return .success ""
    | .error e => return .failed s!"failed to write {path}: {e.message}"

def unmask (files : Files m) (i : Invocation) (source : String) : m Outcome := do
  match Pipeline.run ⟨Registry.builtin, i.selection, i.skipScan⟩ source with
  | .ok unmasked => deliver files i.output (render i.format unmasked)
  | .error (.allFailed attempts) => return allFailed i.format attempts
  | .error error => return .failed error.message

/-- Runs the program on arguments. Octets of the file that form no character are replaced. -/
def run (files : Files m) (args : List String) : m Outcome := do
  match Command.parse args with
  | .error e => return .misused e
  | .ok .help => return .success (help Registry.builtin.entries)
  | .ok .version => return .success (version ++ "\n")
  | .ok (.unmask i) =>
    match ← files.read i.path with
    | .ok contents => unmask files i (Text.Utf8.repair contents)
    | .error e => return .failed s!"failed to read {i.path}: {e.message}"

end CommandLine

end Unmask
