import Unmask.Decimal
import Unmask.Layers
import Unmask.Text.Basic

/-!
# Choosing and trying schemas

A schema knows one disguise: whether it recognises a program, and how to unmask it. A registry holds
schemas under names with versions. Names are compared without blanks and letter case, and two
schemas have a second name.

A selection is `auto` for all entries, or a list of choices with commas between them. A choice is a
name, which selects all its versions, or a name and a version with an underscore between them. A
pipeline tries the selected schemas that recognise a source one after the other, until one succeeds.
How the schemas are asked is left open, so that a run can also keep track of what it asks.
-/
namespace Unmask

/-- How to recognise one disguise, to take it off, and to report what was under it. -/
structure Unmasker (α : Type) where
  scan : String → Bool
  unmask : String → Except Failure α
  report : α → String

structure Schema where
  scan : String → Bool
  run : String → Except Failure String

def Unmasker.schema {α : Type} (u : Unmasker α) : Schema :=
  ⟨u.scan, fun source => (u.unmask source).map u.report⟩

structure Entry where
  name : String
  version : Nat
  schema : Schema

def Entry.label (e : Entry) : String := s!"{e.name} v{e.version}"

/-- What is wrong with a part of a selection. -/
inductive ChoiceFault where
  | emptyName
  | unexpectedCharacter (c : Char)
  | missingVersion
  | missingName
  | versionOutOfRange
  deriving DecidableEq

def ChoiceFault.message : ChoiceFault → String
  | .emptyName => "empty schema name"
  | .unexpectedCharacter c => "unexpected character '" ++ String.singleton c ++ "'"
  | .missingVersion => "missing version after '_'"
  | .missingName => "missing schema name"
  | .versionOutOfRange => "version out of range"

inductive RegistryError where
  | duplicateVersion (name : String) (version : Nat)
  | invalidChoice (text : String) (fault : ChoiceFault)
  | unknownSchema (name : String)
  | unknownVersion (name : String) (version : Nat)
  deriving DecidableEq

def RegistryError.message : RegistryError → String
  | .duplicateVersion name version => s!"schema '{name}' version {version} is already registered"
  | .invalidChoice text fault => s!"invalid schema option '{text}': {fault.message}"
  | .unknownSchema name => s!"unknown schema '{name}'"
  | .unknownVersion name version => s!"schema '{name}' has no version {version}"

structure Registry where
  entries : List Entry

namespace Registry

def empty : Registry := ⟨[]⟩

def aliases : List (String × String) := [("vore", "vare"), ("hyperd", "hyperion")]

/-- The form in which names are compared. -/
def normalize (name : String) : String :=
  let plain := String.ofList ((name.toList.filter (· != ' ')).flatMap Text.lowerCase)
  (aliases.lookup plain).getD plain

def get? (r : Registry) (name : String) (version : Nat) : Option Entry :=
  r.entries.find? fun e => e.name == normalize name && e.version == version

/-- Adds an entry, unless there is one with its name and version: that is an error then. -/
def register (r : Registry) (name : String) (version : Nat) (schema : Schema) :
    Registry × Option RegistryError :=
  let name := normalize name
  if (r.get? name version).isSome then (r, some (.duplicateVersion name version))
  else (⟨r.entries ++ [⟨name, version, schema⟩]⟩, none)

def size (r : Registry) : Nat := r.entries.length

def isEmpty (r : Registry) : Bool := r.entries.isEmpty

def scan (source : String) (entries : List Entry) : List Entry :=
  entries.filter fun e => e.schema.scan source

end Registry

/-- A part of a selection. -/
structure Choice where
  name : String
  version : Option Nat
  deriving DecidableEq

def Entry.token (e : Entry) : String := s!"{e.name}_{e.version}"

namespace Choice

def isAllowed (c : Char) : Bool :=
  Text.isAsciiAlphanumeric c || c == '_' || c == '-' || c == ' '

def splitLast? (cs : List Char) : Option (List Char × List Char) :=
  let reversed := cs.reverse
  match reversed.dropWhile (· != '_') with
  | [] => none
  | _ :: front => some (front.reverse, (reversed.takeWhile (· != '_')).reverse)

/-- The digits of a version, which may stand behind a `v`. -/
def versionDigits (suffix : List Char) : List Char :=
  match suffix with
  | 'v' :: rest => rest
  | 'V' :: rest => rest
  | cs => cs

def parse (text : String) : Except RegistryError Choice :=
  let cs := Text.trimChars text.toList
  let trimmed := String.ofList cs
  let named := Choice.mk (Registry.normalize trimmed) none
  let invalid fault := Except.error (RegistryError.invalidChoice trimmed fault)
  if cs.isEmpty then .error (.invalidChoice text .emptyName)
  else
    match cs.find? (!isAllowed ·) with
    | some c => invalid (.unexpectedCharacter c)
    | none =>
      match splitLast? cs with
      | none => .ok named
      | some (name, suffix) =>
        let digits := versionDigits suffix
        if suffix.isEmpty then invalid .missingVersion
        else if digits.isEmpty || !digits.all Text.isAsciiDigit then .ok named
        else if (Text.trimChars name).isEmpty then invalid .missingName
        else if Nat.pow 2 32 ≤ Decimal.digitsValue digits then invalid .versionOutOfRange
        else .ok ⟨Registry.normalize (String.ofList name), some (Decimal.digitsValue digits)⟩

end Choice

inductive Selection where
  | auto
  | explicit (option : String)
  deriving DecidableEq

namespace Selection

def isAuto (option : String) : Bool :=
  (Text.trimChars option.toList).map Text.asciiLower == "auto".toList

def ofText (option : String) : Selection := if isAuto option then .auto else .explicit option

def toText : Selection → String
  | .auto => "auto"
  | .explicit option => option

end Selection

namespace Registry

def choose (r : Registry) (c : Choice) : Except RegistryError (List Entry) :=
  let versions := r.entries.filter fun e => e.name == c.name
  if versions.isEmpty then .error (.unknownSchema c.name)
  else
    match c.version with
    | none => .ok versions
    | some version =>
      let found := versions.filter fun e => e.version == version
      if found.isEmpty then .error (.unknownVersion c.name version) else .ok found

def addNew (selected : List Entry) (entries : List Entry) : List Entry :=
  entries.foldl
    (fun done e =>
      if done.any fun d => d.name == e.name && d.version == e.version then done else done ++ [e])
    selected

def select (r : Registry) (selected : List Entry) (text : String) :
    Except RegistryError (List Entry) :=
  match Choice.parse text with
  | .error e => .error e
  | .ok c => (r.choose c).map (addNew selected)

/-- The entries that a text selects, in the order in which it names them. -/
def resolve (r : Registry) (option : String) : Except RegistryError (List Entry) :=
  if Selection.isAuto option then .ok r.entries
  else (Text.splitOn ',' option).foldlM r.select []

end Registry

structure Attempt where
  schema : String
  failure : Failure

inductive PipelineError where
  | registry (error : RegistryError)
  | noCandidates
  | allFailed (attempts : List Attempt)

def PipelineError.message : PipelineError → String
  | .registry error => error.message
  | .noCandidates => "no schema recognised the input"
  | .allFailed attempts =>
    "every candidate schema failed: " ++ ", ".intercalate (attempts.map Attempt.schema)

/-- The report of a schema that succeeded, and the attempts before it. -/
structure Unmasked where
  schema : String
  output : String
  attempts : List Attempt

structure Pipeline where
  registry : Registry
  selection : Selection
  /-- All selected schemas are tried, whether they recognise the source or not. -/
  skipScan : Bool

/-- How the schemas of entries are asked about a source; their answers may come with effects. -/
structure Inquiry (m : Type → Type) where
  scan : Entry → m Bool
  run : Entry → m (Except Failure String)

/-- The schemas themselves are asked. -/
def Inquiry.direct (source : String) : Inquiry Id :=
  ⟨fun e => e.schema.scan source, fun e => e.schema.run source⟩

namespace Pipeline

variable {m : Type → Type} [Monad m]

/-- The entries to try: the selected ones, or those of them that recognise the source. -/
def candidatesBy (p : Pipeline) (inquiry : Inquiry m) : m (Except RegistryError (List Entry)) :=
  match p.registry.resolve p.selection.toText with
  | .error error => return .error error
  | .ok selected =>
    if p.skipScan then return .ok selected
    else return .ok (← selected.filterM inquiry.scan)

/-- Tries entries in order; `failed` are the attempts so far. -/
def tryEach (inquiry : Inquiry m) : List Attempt → List Entry → m (Except PipelineError Unmasked)
  | failed, [] => return .error (.allFailed failed)
  | failed, e :: rest => do
    match ← inquiry.run e with
    | .ok output => return .ok ⟨e.label, output, failed⟩
    | .error failure => tryEach inquiry (failed ++ [⟨e.label, failure⟩]) rest

def runBy (p : Pipeline) (inquiry : Inquiry m) : m (Except PipelineError Unmasked) := do
  match ← p.candidatesBy inquiry with
  | .error error => return .error (.registry error)
  | .ok [] => return .error .noCandidates
  | .ok entries => tryEach inquiry [] entries

def candidates (p : Pipeline) (source : String) : Except RegistryError (List Entry) :=
  (p.candidatesBy (.direct source)).run

def run (p : Pipeline) (source : String) : Except PipelineError Unmasked :=
  (p.runBy (.direct source)).run

end Pipeline

end Unmask
