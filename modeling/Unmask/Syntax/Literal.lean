import Unmask.Decimal
import Unmask.Text.Basic
import Unmask.Text.Utf8

/-!
# Literals

How literals are read and written. A string literal is a prefix, a delimiter of one or three quotes,
a body and the delimiter again; `StringLiteral.decode?` reads it, and `quoteText` and `quoteBytes`
write one for any text and any octets. Numbers may hold underscores.
-/
namespace Unmask.Literal

open Unmask.Text

def hexDigit? (c : Char) : Option Nat :=
  if isAsciiDigit c then some (c.toNat - '0'.toNat)
  else if 'a' ≤ c && c ≤ 'f' then some (c.toNat - 'a'.toNat + 10)
  else if 'A' ≤ c && c ≤ 'F' then some (c.toNat - 'A'.toNat + 10)
  else none

def octalDigit? (c : Char) : Option Nat :=
  if '0' ≤ c && c ≤ '7' then some (c.toNat - '0'.toNat) else none

def hexValue? (digits : List Char) : Option Nat :=
  digits.foldl (fun n c => n.bind fun n => (hexDigit? c).map (n * 16 + ·)) (some 0)

/-- The character with a code point, unless that is a surrogate or too large. -/
def charOfCode? (n : Nat) : Option Char :=
  if n.isValidChar then some (Char.ofNat n) else none

/-- The character that hexadecimal digits name. -/
def hexChar? (digits : List Char) : Option Char := (hexValue? digits).bind charOfCode?

/-- The character that one letter after a backslash stands for. -/
def simpleEscape? (c : Char) : Option Char :=
  match c with
  | '\\' => some '\\'
  | '\'' => some '\''
  | '"' => some '"'
  | 'a' => some '\x07'
  | 'b' => some '\x08'
  | 'f' => some '\x0c'
  | 'n' => some '\n'
  | 'r' => some '\r'
  | 't' => some '\t'
  | 'v' => some '\x0b'
  | _ => none

/-- Reads the body of a literal that is not raw; `wide` when it is text and not octets. Escapes of
code points belong to text only, and an octal escape in octets is taken modulo 256. The characters
read so far are in `done`, the last one first. -/
def decodeBody (wide : Bool) : List Char → List Char → Option (List Char)
  | done, [] => some done.reverse
  | done, ['\\'] => some ('\\' :: done).reverse
  | done, '\\' :: c :: rest =>
    let octal (n : Nat) : Char := Char.ofNat (if wide then n else n % 256)
    if c == '\n' then decodeBody wide done rest
    else if c == 'x' then
      match rest with
      | a :: b :: rest =>
        match hexChar? [a, b] with
        | some x => decodeBody wide (x :: done) rest
        | none => none
      | _ => none
    else if wide && c == 'u' then
      match rest with
      | a :: b :: d :: e :: rest =>
        match hexChar? [a, b, d, e] with
        | some x => decodeBody wide (x :: done) rest
        | none => none
      | _ => none
    else if wide && c == 'U' then
      match rest with
      | a :: b :: d :: e :: f :: g :: h :: i :: rest =>
        match hexChar? [a, b, d, e, f, g, h, i] with
        | some x => decodeBody wide (x :: done) rest
        | none => none
      | _ => none
    else if wide && c == 'N' then none
    else
      match octalDigit? c with
      | some n₁ =>
        match rest with
        | [] => decodeBody wide (octal n₁ :: done) []
        | d :: rest₁ =>
          match octalDigit? d with
          | none => decodeBody wide (octal n₁ :: done) (d :: rest₁)
          | some n₂ =>
            match rest₁ with
            | [] => decodeBody wide (octal (n₁ * 8 + n₂) :: done) []
            | e :: rest₂ =>
              match octalDigit? e with
              | none => decodeBody wide (octal (n₁ * 8 + n₂) :: done) (e :: rest₂)
              | some n₃ => decodeBody wide (octal ((n₁ * 8 + n₂) * 8 + n₃) :: done) rest₂
      | none =>
        match simpleEscape? c with
        | some x => decodeBody wide (x :: done) rest
        | none => decodeBody wide (c :: '\\' :: done) rest
  | done, c :: rest => decodeBody wide (c :: done) rest

/-- What precedes a list at the end of another one. -/
def stripBack? (suffix cs : List Char) : Option (List Char) :=
  (afterFront? suffix.reverse cs.reverse).map List.reverse

/-- Number of octets of characters in UTF-8. -/
def octetCount (cs : List Char) : Nat := cs.foldl (fun n c => n + c.utf8Size) 0

/-- The body between the delimiters. The first delimiter in the order triple single, triple double,
single, double quotes that stands at the front and has room at the end decides. -/
def body? (quoted : List Char) : Option (List Char) :=
  let delimiters := [['\'', '\'', '\''], ['"', '"', '"'], ['\''], ['"']]
  let chosen := delimiters.find? fun d =>
    2 * d.length ≤ octetCount quoted && (afterFront? d quoted).isSome
  chosen.bind fun d => (afterFront? d quoted).bind (stripBack? d)

def isQuote (c : Char) : Bool := c == '\'' || c == '"'

inductive StringLiteral where
  | text (value : String)
  | bytes (value : Bytes)
  deriving DecidableEq

/-- The octets of characters below U+0100. -/
def narrow (cs : List Char) : Bytes := cs.map fun c => UInt8.ofNat c.toNat

/-- Reads one string literal, prefix and quotes included. Formatted strings, escapes that name no
character, and octets with characters that are not ASCII are refused. -/
def StringLiteral.decode? (cs : List Char) : Option StringLiteral :=
  let flags := (cs.takeWhile (!isQuote ·)).map asciiLower
  if flags.any fun c => !(c == 'r' || c == 'b' || c == 'u') then none
  else
    let raw := flags.contains 'r'
    let octets := flags.contains 'b'
    (body? (cs.dropWhile (!isQuote ·))).bind fun body =>
      if octets && body.any (fun c => 0x80 ≤ c.toNat) then none
      else
        let value := if raw then some body else decodeBody (!octets) [] body
        value.map fun v => if octets then .bytes (narrow v) else .text (String.ofList v)

/-- The number that digits in a radix denote, if there are digits and all are below the radix. -/
def digits? (radix : Nat) (digits : List Char) : Option Nat :=
  if digits.isEmpty then none
  else
    digits.foldl
      (fun n c => n.bind fun n =>
        (hexDigit? c).bind fun d => if d < radix then some (n * radix + d) else none)
      (some 0)

/-- Reads an integer literal with its radix mark. A decimal number of several digits starts with
zero only if it is zero. -/
def int? (cs : List Char) : Option Int :=
  let plain := (cs.filter (· != '_')).map asciiLower
  let value := match plain with
    | '0' :: 'x' :: rest => digits? 16 rest
    | '0' :: 'o' :: rest => digits? 8 rest
    | '0' :: 'b' :: rest => digits? 2 rest
    | '0' :: rest => if rest.all (· == '0') then some 0 else none
    | digits => digits? 10 digits
  value.map Int.ofNat

/-- Reads a float literal; imaginary numbers are refused. -/
def float? (cs : List Char) : Option Float :=
  let plain := cs.filter (· != '_')
  match plain.getLast? with
  | some 'j' => none
  | some 'J' => none
  | _ => Decimal.readFloat plain

/-- The quote to write around text: single, unless only that one occurs within. -/
def chooseQuote (hasSingle hasDouble : Bool) : Char :=
  if hasSingle && !hasDouble then '"' else '\''

def isPrintable (c : Char) : Bool :=
  let n := c.toNat
  c == ' ' ||
    !(isControl c || isBlank c || n == 0xAD || (0x200B ≤ n && n ≤ 0x200F) ||
      (0x2060 ≤ n && n ≤ 0x2064) || n == 0xFEFF || (0xE000 ≤ n && n ≤ 0xF8FF) ||
      0xF0000 ≤ n)

/-- The lower-case hexadecimal digits of a number, at least `width` of them. -/
def hexPadded (width n : Nat) : List Char :=
  let digits := Nat.toDigits 16 n
  List.replicate (width - digits.length) '0' ++ digits

/-- A character as a numeric escape, the shortest form that has room for it. -/
def escapeCode (c : Char) : List Char :=
  let n := c.toNat
  if n < 0x100 then '\\' :: 'x' :: hexPadded 2 n
  else if n < 0x10000 then '\\' :: 'u' :: hexPadded 4 n
  else '\\' :: 'U' :: hexPadded 8 n

/-- A character within text between the given quotes. -/
def escapeChar (quote c : Char) : List Char :=
  if c == '\\' then ['\\', '\\']
  else if c == '\n' then ['\\', 'n']
  else if c == '\r' then ['\\', 'r']
  else if c == '\t' then ['\\', 't']
  else if c == quote then ['\\', c]
  else if isPrintable c then [c]
  else escapeCode c

def quoteChars (cs : List Char) : List Char :=
  let quote := chooseQuote (cs.contains '\'') (cs.contains '"')
  quote :: cs.flatMap (escapeChar quote) ++ [quote]

def quoteText (s : String) : String := String.ofList (quoteChars s.toList)

/-- An octet within octets between the given quotes. -/
def escapeByte (quote : Char) (b : UInt8) : List Char :=
  let c := Char.ofNat b.toNat
  if c == '\\' then ['\\', '\\']
  else if c == '\n' then ['\\', 'n']
  else if c == '\r' then ['\\', 'r']
  else if c == '\t' then ['\\', 't']
  else if c == quote then ['\\', quote]
  else if 0x20 ≤ b && b ≤ 0x7E then [c]
  else '\\' :: 'x' :: hexPadded 2 b.toNat

def quoteByteChars (bytes : Bytes) : List Char :=
  let quote := chooseQuote (bytes.contains 0x27) (bytes.contains 0x22)
  'b' :: quote :: bytes.flatMap (escapeByte quote) ++ [quote]

def quoteBytes (bytes : Bytes) : String := String.ofList (quoteByteChars bytes)

end Unmask.Literal
