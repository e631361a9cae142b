import Unmask.Syntax.Literal
import Unmask.Text.Basic

/-!
# Places and tokens

A cursor stands at the start of a token. Blanks, comments and backslash continuations before the
token are left out, and the cursor remembers whether a line ended among them and how far the present
line is indented, so that a reader may take the line end for a separator or pass over it.

The tokens are words, symbols, numbers and the start and body of string literals. Each function for
them looks at the front of the source only and tells how long the token is.
-/
namespace Unmask

/-- The start of a token. -/
structure Cursor where
  /-- The source from here on. -/
  rest : List Char
  /-- Number of characters before this place. -/
  pos : Nat
  /-- Number of octets before this place in its line. -/
  column : Nat
  /-- The indentation of the present line if a line ended since the last token. -/
  lineEnd : Option Nat
  /-- Number of characters up to the end of the last token. -/
  lastEnd : Nat
  /-- The indentation of the block that this place belongs to. -/
  indent : Nat
  deriving Repr

namespace Cursor

open Unmask.Text

/-- What the skipped text before a token consists of so far. -/
inductive Gap where
  /-- Spaces, tabs and line ends. -/
  | plain
  /-- A blank of another kind, after which line ends do not count. -/
  | other
  | comment
  deriving DecidableEq

/-- Blanks that hide the end of their line. -/
def isOtherBlank (c : Char) : Bool :=
  c == '\x0b' || c == '\uFEFF' || c == '\u2060' || c == '\u200B'

/-- Passes over blanks, comments and continuations. `ended` tells whether a line ended, and `width`
is the indentation since: a tab counts eight, a form feed or a carriage return starts over. -/
def skip (lastEnd indent : Nat) (gap : Gap) (ended : Bool) (width pos column : Nat) :
    List Char → Cursor
  | [] => ⟨[], pos, column, if ended || gap != .other then some 0 else none, lastEnd, indent⟩
  | c :: rest =>
    let next := column + c.utf8Size
    match gap with
    | .comment =>
      if c == '\n' then skip lastEnd indent .plain true 0 (pos + 1) 0 rest
      else skip lastEnd indent .comment ended width (pos + 1) next rest
    | _ =>
      let hidden := gap == .other
      let stop : Cursor :=
        ⟨c :: rest, pos, column, if ended then some width else none, lastEnd, indent⟩
      if c == '\n' then
        if hidden then skip lastEnd indent gap ended width (pos + 1) 0 rest
        else skip lastEnd indent gap true 0 (pos + 1) 0 rest
      else if c == ' ' then
        skip lastEnd indent gap ended (if hidden then width else width + 1) (pos + 1) next rest
      else if c == '\t' then
        skip lastEnd indent gap ended (if hidden then width else width + 8) (pos + 1) next rest
      else if c == '\r' || c == '\x0c' then
        skip lastEnd indent gap ended (if hidden then width else 0) (pos + 1) next rest
      else if isOtherBlank c then skip lastEnd indent .other ended width (pos + 1) next rest
      else if c == '#' then skip lastEnd indent .comment ended width (pos + 1) next rest
      else if c == '\\' then
        match rest with
        | '\n' :: rest' => skip lastEnd indent .plain ended width (pos + 2) 0 rest'
        | [] => ⟨[], pos + 1, next, some 0, lastEnd, indent⟩
        | _ => stop
      else stop

/-- The first token of a source. A byte order mark at the very start is no part of it. -/
def start (source : List Char) : Cursor :=
  match source with
  | '\uFEFF' :: rest => skip 0 0 .plain false 0 1 3 rest
  | _ => skip 0 0 .plain false 0 0 0 source

def columnAfter (column : Nat) (token : List Char) : Nat :=
  token.foldl (fun n c => if c == '\n' then 0 else n + c.utf8Size) column

/-- Goes behind a token of `n` characters, without passing over what follows it. -/
def step (c : Cursor) (n : Nat) : Cursor :=
  ⟨c.rest.drop n, c.pos + n, columnAfter c.column (c.rest.take n), none, c.pos + n, c.indent⟩

/-- Goes behind a token of `n` characters, to the start of the next one. -/
def advance (c : Cursor) (n : Nat) : Cursor :=
  skip (c.pos + n) c.indent .plain false 0 (c.pos + n) (columnAfter c.column (c.rest.take n))
    (c.rest.drop n)

/-- The source from a place to the end of the token before another place. -/
def textTo (first last : Cursor) : List Char := first.rest.take (last.lastEnd - first.pos)

/-- Drops at most `n` spaces and tabs at the front. -/
def dropIndent : Nat → List Char → List Char
  | n + 1, c :: rest => if c == ' ' || c == '\t' then dropIndent n rest else c :: rest
  | _, cs => cs

/-- Text whose lines after the first are moved left by at most `column` places. -/
def dedent (column : Nat) (text : List Char) : List Char :=
  match splitChars '\n' text with
  | [] => []
  | first :: rest => first ++ rest.flatMap fun l => '\n' :: dropIndent column l

/-- The source from a place to the end of the token before another one, moved left by the column
where it starts. -/
def dedentedTo (first last : Cursor) : String :=
  String.ofList (dedent first.column (first.textTo last))

def atEnd (c : Cursor) : Bool := c.rest.isEmpty

/-- Whether the present line is indented less than its block, so that the block ends here. -/
def isDedented (c : Cursor) : Bool :=
  match c.lineEnd with
  | some width => width < c.indent
  | none => false

end Cursor

namespace Token
open Unmask.Text Unmask.Literal

/-- The word at the front, empty if there is none. -/
def word (cs : List Char) : List Char :=
  match cs with
  | c :: rest => if isIdentifierStart c then c :: rest.takeWhile isIdentifierContinue else []
  | [] => []

def reservedWords : List String :=
  ["False", "None", "True", "and", "as", "assert", "break", "class", "continue", "def", "del",
    "elif", "else", "except", "finally", "for", "from", "global", "if", "import", "in", "is",
    "lambda", "nonlocal", "not", "or", "pass", "raise", "return", "try", "while", "with", "yield"]

def isReserved (word : List Char) : Bool := reservedWords.contains (String.ofList word)

/-- All symbols, longer ones before their beginnings. -/
def symbols : List (List Char) :=
  ["**=", "//=", ">>=", "<<=", "...", "**", "//", ">>", "<<", "<=", ">=", "==", "!=", "<>", "->",
    "+=", "-=", "*=", "/=", "@=", "%=", "&=", "^=", "|=", ":=", "+", "-", "*", "/", "@", "%", "&",
    "^", "|", "~", "<", ">", "=", ":", ",", ";", ".", "(", ")", "[", "]", "\x7b", "\x7d"].map
    String.toList

def startsWith (front cs : List Char) : Bool := (afterFront? front cs).isSome

/-- The longest symbol at the front, empty if there is none. -/
def symbol (cs : List Char) : List Char := (symbols.find? (startsWith · cs)).getD []

def augmentedSymbols : List (List Char) :=
  ["**=", "//=", ">>=", "<<=", "+=", "-=", "*=", "/=", "@=", "%=", "&=", "^=", "|="].map
    String.toList

/-- Length of decimal digits with single underscores between and after them. -/
def digitsLength (afterMark : Bool) : List Char → Nat
  | c :: rest =>
    if isAsciiDigit c then digitsLength false rest + 1
    else if c == '_' && !afterMark then digitsLength true rest + 1
    else 0
  | [] => 0

/-- Length of digits of one radix with single underscores before them. -/
def radixDigitsLength (isDigit : Char → Bool) : List Char → Nat
  | '_' :: d :: rest => if isDigit d then radixDigitsLength isDigit rest + 2 else 0
  | c :: rest => if isDigit c then radixDigitsLength isDigit rest + 1 else 0
  | [] => 0

/-- Length of an exponent, `0` if there is none. -/
def exponentLength (cs : List Char) : Nat :=
  match cs with
  | e :: rest =>
    if e == 'e' || e == 'E' then
      match rest with
      | s :: digits =>
        if s == '+' || s == '-' then
          let n := digitsLength true digits
          if n == 0 then 0 else n + 2
        else
          let n := digitsLength true rest
          if n == 0 then 0 else n + 1
      | [] => 0
    else 0
  | [] => 0

/-- A length and one more if one of the given letters follows. -/
def withSuffix (letters : List Char) (cs : List Char) (n : Nat) : Nat :=
  match cs.drop n with
  | c :: _ => if letters.contains c then n + 1 else n
  | [] => n

/-- A number of a radix other than ten, after its mark. -/
def radixLength? (cs : List Char) : Option Nat :=
  match cs with
  | '0' :: mark :: digits =>
    let isDigit? : Option (Char → Bool) :=
      if mark == 'x' || mark == 'X' then some fun c => (hexDigit? c).isSome
      else if mark == 'o' || mark == 'O' then some fun c => (octalDigit? c).isSome
      else if mark == 'b' || mark == 'B' then some fun c => c == '0' || c == '1'
      else none
    isDigit?.bind fun isDigit =>
      let n := radixDigitsLength isDigit digits
      if n == 0 then none else some (withSuffix ['l', 'L'] cs (n + 2))
  | _ => none

/-- A number at the front: its length, and whether it is written as a float. -/
def number? (cs : List Char) : Option (Nat × Bool) :=
  match radixLength? cs with
  | some n => some (n, false)
  | none =>
    let whole := digitsLength true cs
    match cs.drop whole with
    | '.' :: rest =>
      let fraction := digitsLength true rest
      if whole == 0 && fraction == 0 then none
      else
        let n := whole + 1 + fraction
        some (withSuffix ['j', 'J'] cs (n + exponentLength (cs.drop n)), true)
    | rest =>
      if whole == 0 then none
      else
        match exponentLength rest with
        | 0 => some (withSuffix ['l', 'L', 'j', 'J'] cs whole, false)
        | e => some (withSuffix ['j', 'J'] cs (whole + e), true)

/-- How a string literal begins. -/
structure StringStart where
  /-- Length of the prefix and the delimiter. -/
  length : Nat
  /-- Whether braces in the body hold expressions. -/
  formatted : Bool
  raw : Bool
  octets : Bool
  quote : Char
  triple : Bool

def isPrefixLetter (c : Char) : Bool := ['f', 't', 'r', 'b', 'u'].contains (asciiLower c)

/-- The start of a string literal at the front. A back quote delimits text of the same kind. -/
def stringStart? (cs : List Char) : Option StringStart :=
  let letters := (cs.takeWhile isPrefixLetter).map asciiLower
  match cs.dropWhile isPrefixLetter with
  | q :: rest =>
    if isQuote q || q == '`' then
      let triple := q != '`' && startsWith [q, q] rest
      some ⟨letters.length + (if triple then 3 else 1),
        letters.contains 'f' || letters.contains 't', letters.contains 'r', letters.contains 'b', q,
        triple⟩
    else none
  | [] => none

/-- Number of hexadecimal digits at the front, at most `n`. -/
def hexRun (n : Nat) (cs : List Char) : Nat :=
  ((cs.take n).takeWhile (hexDigit? · |>.isSome)).length

/-- Length of the escape after a backslash; `0` when the backslash stands for itself. -/
def escapeLength (cs : List Char) : Nat :=
  match cs with
  | c :: rest =>
    if c == 'u' && hexRun 4 rest == 4 then 5
    else if c == 'U' && hexRun 8 rest == 8 then 9
    else if c == 'x' && hexRun 2 rest == 2 then 3
    else if isAsciiDigit c then 1 + ((rest.take 2).takeWhile isAsciiDigit).length
    else if ['\n', '\'', '"', 'a', 'b', 'f', 'n', 'r', 't', 'v', '\\'].contains c then 1
    else if c == '\r' && rest.head? == some '\n' then 2
    else if c == 'N' && rest.head? == some '\x7b' then
      let name := (rest.drop 1).takeWhile (· != '\x7d')
      if name.isEmpty || (rest.drop 1).length == name.length then 0 else name.length + 3
    else 0
  | [] => 0

/-- Where the body of a string literal stops. -/
inductive BodyStop where
  /-- So many characters up to the end of the closing delimiter. -/
  | closed (n : Nat)
  /-- So many characters up to the brace that opens an expression. -/
  | hole (n : Nat)
  /-- The body does not end, or holds a line end or a brace that it may not hold. -/
  | broken
  deriving DecidableEq

/-- Reads the body of a string literal, after leaving out `skip` characters; `n` are read already.
`fresh` tells that no ordinary character was read since the delimiter, an escape or a brace; only
there may a literal with a single delimiter hold a line end. -/
def body (s : StringStart) : Nat → Bool → Nat → List Char → BodyStop
  | _, _, _, [] => .broken
  | skip + 1, fresh, n, _ :: rest => body s skip fresh (n + 1) rest
  | 0, fresh, n, c :: rest =>
    if c == '\x00' then .broken
    else if s.formatted && (c == '\x7b' || c == '\x7d') then
      if rest.head? == some c then body s 1 true (n + 1) rest
      else if c == '\x7b' then .hole n
      else .broken
    else if c == '\\' then
      if s.raw then
        let escaped := match rest with
          | d :: _ => if d == s.quote || d == '\\' then 1 else 0
          | [] => 0
        let lineEnd := if (rest.drop escaped).head? == some '\n' then 1 else 0
        body s (escaped + lineEnd) fresh (n + 1) rest
      else if s.octets && (rest.head?.any fun d => d == 'N' || d == 'u' || d == 'U') then
        body s 2 false (n + 1) rest
      else body s (escapeLength rest) true (n + 1) rest
    else if c == s.quote then
      if s.triple then
        if startsWith [c, c] rest then .closed (n + 3)
        else if rest.head? == some c then body s 1 true (n + 1) rest
        else body s 0 true (n + 1) rest
      else .closed (n + 1)
    else if c == '\n' && !fresh && !s.triple then .broken
    else body s 0 false (n + 1) rest

/-- Where the format of an expression in braces stops: at the closing brace or at one that opens an
expression in it. -/
def format : Nat → List Char → BodyStop
  | _, [] => .broken
  | n, c :: rest =>
    if c == '\x7d' then .closed n else if c == '\x7b' then .hole n else format (n + 1) rest

end Token

end Unmask
