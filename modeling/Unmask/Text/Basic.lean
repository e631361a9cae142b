import Unmask.Text.Property

/-!
# Characters and texts

The classes of characters that the library tests, over all of Unicode: ASCII is decided directly,
and everything above it is looked up in the ranges of `Unmask.Text.Property`. Rows of characters and
of octets are searched for other rows, and the characters of a line for the places where a rule
succeeds.

A text shown inside a message stands between double quotes, with a backslash before a quote or a
backslash and the usual short forms of tab, line feed, carriage return and the null character.
-/
namespace Unmask.Text

section CharClass

open Property

def inRanges (table : Array (Nat × Nat)) (n : Nat) : Bool :=
  table.any fun r => r.1 ≤ n && n ≤ r.2

def isAsciiDigit (c : Char) : Bool := '0' ≤ c && c ≤ '9'

def isAsciiLetter (c : Char) : Bool := ('a' ≤ c && c ≤ 'z') || ('A' ≤ c && c ≤ 'Z')

def isAsciiAlphanumeric (c : Char) : Bool := isAsciiLetter c || isAsciiDigit c

/-- Unicode's property White_Space. -/
def isBlank (c : Char) : Bool :=
  let n := c.toNat
  (0x09 ≤ n && n ≤ 0x0D) || n == 0x20 || n == 0x85 || n == 0xA0 || n == 0x1680 ||
    (0x2000 ≤ n && n ≤ 0x200A) || n == 0x2028 || n == 0x2029 || n == 0x202F || n == 0x205F ||
    n == 0x3000

/-- Control characters, general category Cc. -/
def isControl (c : Char) : Bool :=
  let n := c.toNat
  n < 0x20 || (0x7F ≤ n && n < 0xA0)

/-- Unicode's property Alphabetic, for a character that is not ASCII. -/
private def isWideAlphabetic (n : Nat) : Bool :=
  inRanges letterRanges n || (inRanges markRanges n && !inRanges nonAlphabeticMarkRanges n) ||
    inRanges alphabeticSymbolRanges n

/-- Alphabetic characters and numbers of every kind. -/
def isAlphanumeric (c : Char) : Bool :=
  if c.toNat < 0x80 then isAsciiAlphanumeric c
  else
    isWideAlphabetic c.toNat || inRanges decimalDigitRanges c.toNat ||
      inRanges otherNumberRanges c.toNat

/-- Decimal digits, general category Nd. -/
def isDecimalDigit (c : Char) : Bool :=
  if c.toNat < 0x80 then isAsciiDigit c else inRanges decimalDigitRanges c.toNat

/-- Word characters: alphabetic characters, marks, decimal digits, connecting punctuation and the
two joiners. -/
def isWord (c : Char) : Bool :=
  let n := c.toNat
  if n < 0x80 then isAsciiAlphanumeric c || c == '_'
  else
    isWideAlphabetic n || inRanges markRanges n || inRanges decimalDigitRanges n ||
      inRanges connectorRanges n || n == 0x200C || n == 0x200D

/-- Characters that may start an identifier: the underscore and Unicode's property XID_Start. -/
def isIdentifierStart (c : Char) : Bool :=
  let n := c.toNat
  if n < 0x80 then isAsciiLetter c || c == '_'
  else
    (inRanges letterRanges n && !inRanges nonStartLetterRanges n) || inRanges otherStartRanges n

/-- Characters that may follow in an identifier: Unicode's property XID_Continue. -/
def isIdentifierContinue (c : Char) : Bool :=
  let n := c.toNat
  if n < 0x80 then isAsciiAlphanumeric c || c == '_'
  else
    ((inRanges letterRanges n ||
        (inRanges markRanges n && !inRanges enclosingMarkRanges n) ||
        inRanges decimalDigitRanges n || inRanges connectorRanges n) &&
      !inRanges nonContinueRanges n) ||
    inRanges otherStartRanges n || inRanges otherContinueRanges n

def asciiLower (c : Char) : Char :=
  if 'A' ≤ c && c ≤ 'Z' then Char.ofNat (c.toNat + 32) else c

/-- The lower case of a character. Only the dotted capital I has two characters there. -/
def lowerCase (c : Char) : List Char :=
  let n := c.toNat
  if n < 0x80 then [asciiLower c]
  else if n == 0x130 then ['i', '\u0307']
  else
    match lowerCaseRuns.find? fun r =>
        r.first ≤ n && n ≤ r.last && (n - r.first) % r.stride == 0 with
    | some r => [Char.ofNat (n + r.shift).toNat]
    | none => [c]

def trimLeft (cs : List Char) : List Char := cs.dropWhile isBlank

def trimRight (cs : List Char) : List Char := (cs.reverse.dropWhile isBlank).reverse

def trimChars (cs : List Char) : List Char := trimRight (trimLeft cs)

def trim (s : String) : String := String.ofList (trimChars s.toList)

def remove (p : Char → Bool) (s : String) : String := String.ofList (s.toList.filter (!p ·))

/-- The maximal runs of characters that are not blank, in order. -/
def words (cs : List Char) : List (List Char) :=
  let close (word : List Char) (done : List (List Char)) :=
    if word.isEmpty then done else word.reverse :: done
  let (word, done) := cs.foldl
    (fun (word, done) c => if isBlank c then ([], close word done) else (c :: word, done)) ([], [])
  (close word done).reverse

/-- The pieces between the occurrences of a separating character; one more than there are
occurrences. -/
def splitChars (sep : Char) (cs : List Char) : List (List Char) :=
  let (piece, done) := cs.foldl
    (fun (piece, done) c =>
      if c == sep then ([], piece.reverse :: done) else (c :: piece, done)) ([], [])
  (piece.reverse :: done).reverse

def splitOn (sep : Char) (s : String) : List String := (splitChars sep s.toList).map String.ofList

-- What holds of every character in a list is decided by going through the list. The library has
-- instances that go through all characters there are; these come first.
section Deciding

variable {p : Char → Prop} [DecidablePred p]

instance (priority := high) decidableForallMem (cs : List Char) : Decidable (∀ c ∈ cs, p c) :=
  List.decidableBAll p cs

instance (priority := high) decidableExistsMem (cs : List Char) : Decidable (∃ c ∈ cs, p c) :=
  List.decidableBEx p cs

instance (priority := high) decidableForallOption (o : Option Char) : Decidable (∀ c ∈ o, p c) :=
  Option.decidableForallMem o

end Deciding

end CharClass

section Search

variable {α : Type} [BEq α]

/-- What follows a row at the front of another one. -/
def afterFront? : List α → List α → Option (List α)
  | [], cs => some cs
  | p :: ps, c :: cs => if p == c then afterFront? ps cs else none
  | _ :: _, [] => none

theorem afterFront?_eq_some_iff [LawfulBEq α] {front cs rest : List α} :
    afterFront? front cs = some rest ↔ cs = front ++ rest := by
  induction front generalizing cs with
  | nil => simp [afterFront?, eq_comm]
  | cons p ps ih =>
    cases cs with
    | nil => simp [afterFront?]
    | cons c cs => by_cases h : p = c <;> grind [afterFront?]

/-- What precedes and what follows the first occurrence of a row. -/
def cut? (what : List α) : List α → Option (List α × List α)
  | [] => if what.isEmpty then some ([], []) else none
  | c :: rest =>
    match afterFront? what (c :: rest) with
    | some after => some ([], after)
    | none => (cut? what rest).map fun (before, after) => (c :: before, after)

def occurs (what cs : List α) : Bool := (cut? what cs).isSome

/-- Leaves out all occurrences of a row, after leaving out `covered` elements of the last one. -/
def removeFrom (what : List α) : Nat → List α → List α
  | _, [] => []
  | covered + 1, _ :: rest => removeFrom what covered rest
  | 0, c :: rest =>
    match afterFront? what (c :: rest) with
    | some _ => removeFrom what (what.length - 1) rest
    | none => c :: removeFrom what 0 rest

def removeAll (what cs : List α) : List α := if what.isEmpty then cs else removeFrom what 0 cs

end Search

section Match

variable {α : Type}

/-- What follows one or more characters of a class. -/
def skipSome? (p : Char → Bool) (cs : List Char) : Option (List Char) :=
  match cs with
  | c :: rest => if p c then some (rest.dropWhile p) else none
  | [] => none

/-- What a rule gives at the first place where it succeeds. -/
def firstMatch? (rule : List Char → Option α) : List Char → Option α
  | [] => rule []
  | c :: rest =>
    match rule (c :: rest) with
    | some a => some a
    | none => firstMatch? rule rest

/-- What a rule gives at all places where it succeeds, after leaving out `covered` characters of the
last match. The rule also tells what follows a match. -/
def matchesFrom (rule : List Char → Option (α × List Char)) : Nat → List Char → List α
  | _, [] => []
  | covered + 1, _ :: rest => matchesFrom rule covered rest
  | 0, c :: rest =>
    match rule (c :: rest) with
    | some (a, after) => a :: matchesFrom rule (rest.length - after.length) rest
    | none => matchesFrom rule 0 rest

/-- What a rule gives at the places from the left where it succeeds and that are not in a match
before. -/
def allMatches (rule : List Char → Option (α × List Char)) (cs : List Char) : List α :=
  matchesFrom rule 0 cs

/-- The shortest row in front of a place where a rule succeeds, and what the rule gives there. -/
def shortestRow? (rule : List Char → Option α) : List Char → Option (List Char × α)
  | [] => none
  | c :: rest =>
    if c == '\n' then none
    else
      match rule rest with
      | some a => some ([c], a)
      | none => (shortestRow? rule rest).map fun (row, a) => (c :: row, a)

/-- The longest row in front of a place where a rule succeeds, and what the rule gives there. -/
def longestRow? (rule : List Char → Option α) : List Char → Option (List Char × α)
  | [] => none
  | c :: rest =>
    if c == '\n' then none
    else
      match longestRow? rule rest with
      | some (row, a) => some (c :: row, a)
      | none => (rule rest).map fun a => ([c], a)

end Match

end Unmask.Text

namespace Unmask.Text.Quoted

def escapeChar (c : Char) : List Char :=
  match c with
  | '"' => ['\\', '"']
  | '\\' => ['\\', '\\']
  | '\t' => ['\\', 't']
  | '\n' => ['\\', 'n']
  | '\r' => ['\\', 'r']
  | '\x00' => ['\\', '0']
  | c => [c]

def quote (s : String) : String :=
  String.ofList ('"' :: s.toList.flatMap escapeChar ++ ['"'])

end Unmask.Text.Quoted
