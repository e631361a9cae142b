import Unmask.Syntax.Literal
import Unmask.Text.Basic

/-!
# JSON and the settings of the log

JSON documents, whose objects keep the order of their entries, and the form in which they are
printed: each item and each entry on a line of its own, indented by two spaces for each level.

The settings of the log are the form of its lines and the filter that selects them. They are read
from a JSON object, in which entries may be missing, or from an array of the same values, in which
the last ones may be missing.
-/
namespace Unmask

inductive Json where
  | null
  | bool (value : Bool)
  /-- A number as written. -/
  | number (text : String)
  | string (value : String)
  | array (items : List Json)
  | object (entries : List (String × Json))

instance : Inhabited Json := ⟨.null⟩

namespace Json

def escapeChar (c : Char) : List Char :=
  match c with
  | '"' => ['\\', '"']
  | '\\' => ['\\', '\\']
  | '\n' => ['\\', 'n']
  | '\r' => ['\\', 'r']
  | '\t' => ['\\', 't']
  | '\x08' => ['\\', 'b']
  | '\x0c' => ['\\', 'f']
  | c => if c.toNat < 0x20 then ['\\', 'u'] ++ Literal.hexPadded 4 c.toNat else [c]

def quote (s : String) : List Char := ['"'] ++ s.toList.flatMap escapeChar ++ ['"']

def newLine (level : Nat) : List Char := '\n' :: List.replicate (2 * level) ' '

/-- Rows between brackets, each on a line of the next level. -/
def bracketed (left right : Char) (level : Nat) (rows : List (List Char)) : List Char :=
  if rows.isEmpty then [left, right]
  else
    let body := (rows.map (newLine (level + 1) ++ ·)).intersperse [',']
    [left] ++ body.flatten ++ newLine level ++ [right]

mutual

/-- A document that starts in a line of a level. -/
def chars (level : Nat) : Json → List Char
  | .null => "null".toList
  | .bool true => "true".toList
  | .bool false => "false".toList
  | .number text => text.toList
  | .string s => quote s
  | .array items => bracketed '[' ']' level (itemRows (level + 1) items)
  | .object entries => bracketed '\x7b' '\x7d' level (entryRows (level + 1) entries)

def itemRows (level : Nat) : List Json → List (List Char)
  | [] => []
  | j :: rest => j.chars level :: itemRows level rest

def entryRows (level : Nat) : List (String × Json) → List (List Char)
  | [] => []
  | (key, j) :: rest => (quote key ++ [':', ' '] ++ j.chars level) :: entryRows level rest

end

def text (j : Json) : String := String.ofList (j.chars 0)

def entry? (key : String) (entries : List (String × Json)) : Option Json := entries.lookup key

end Json

inductive LogFormat where
  | json
  | compact
  deriving DecidableEq, Repr

namespace LogFormat

def name : LogFormat → String
  | .json => "json"
  | .compact => "compact"

def ofName? (name : String) : Option LogFormat :=
  [json, compact].find? fun f => f.name == name

/-- The format that a text names in any letter case. -/
def ofText? (text : String) : Option LogFormat :=
  ofName? (String.ofList (text.toList.map Text.asciiLower))

def unknownMessage : String := "Matching variant not found"

/-- A format in JSON is its name, which may also be the only key of an object, without a value. -/
def ofJson? : Json → Option LogFormat
  | .string name => ofName? name
  | .object [(name, .null)] => ofName? name
  | _ => none

end LogFormat

structure LogSettings where
  /-- A filter that goes before the debug switch. -/
  filter : Option String
  format : LogFormat
  debug : Bool
  /-- Warnings of normal operation are shown. -/
  showExpected : Bool
  deriving DecidableEq, Repr

namespace LogSettings

def default : LogSettings := ⟨none, .compact, false, false⟩

/-- The filter without the rule on warnings of normal operation. -/
def baseFilter (s : LogSettings) : String := s.filter.getD (if s.debug then "debug" else "info")

def effectiveFilter (s : LogSettings) : String :=
  if s.showExpected then s.baseFilter else s.baseFilter ++ ",expected=off"

def text? : Json → Option (Option String)
  | .null => some none
  | .string s => some (some s)
  | _ => none

def bool? : Json → Option Bool
  | .bool b => some b
  | _ => none

/-- The keys of the settings, in the order in which an array holds them. -/
def keys : List String := ["filter", "format", "debug", "show_expected"]

/-- A setting, or its default if it is missing. -/
def setting {α : Type} (read : Json → Option α) (absent : α) (key : String)
    (entries : List (String × Json)) : Option α :=
  match Json.entry? key entries with
  | none => some absent
  | some j => read j

def ofEntries? (entries : List (String × Json)) : Option LogSettings := do
  return {
    filter := ← setting text? default.filter "filter" entries
    format := ← setting LogFormat.ofJson? default.format "format" entries
    debug := ← setting bool? default.debug "debug" entries
    showExpected := ← setting bool? default.showExpected "show_expected" entries }

def ofJson? : Json → Option LogSettings
  | .object entries => ofEntries? entries
  | .array items => if keys.length < items.length then none else ofEntries? (keys.zip items)
  | _ => none

def toJson (s : LogSettings) : Json :=
  .object [("filter", (s.filter.map Json.string).getD .null), ("format", .string s.format.name),
    ("debug", .bool s.debug), ("show_expected", .bool s.showExpected)]

end LogSettings

end Unmask
