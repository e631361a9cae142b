import Unmask.Codec.Lzma.Container
import Unmask.Codec.Radix
import Unmask.Disguise.Basic
import Unmask.Dispatch
import Unmask.Syntax.Tree
import Unmask.Syntax.Visit
import Unmask.Text.Basic

/-!
# LZMA spam

A compressed program in a literal holds a compressed program in its first literal, and that one
declares pieces of text under names of underscores. The four pieces that its last statement names
make up an address in base 64, the first of them with its letters rotated and the third in reverse.
-/
namespace Unmask.LzmaSpam

open Disguise Text

def importsOnly (module : String) : Stmt → Bool
  | .importNames [a] => a.name == module
  | _ => false

/-- What is compiled in `compile(…, '<string>', 'exec')`. -/
def compiled? : Expr → Option Expr
  | .call (.name "compile") [code, .constant (.str "<string>"), .constant (.str "exec")] _ =>
    some code
  | _ => none

/-- The literal in `lzma.decompress(base64.b64decode(…))`. -/
def packed? (e : Expr) : Option Bytes :=
  ((e.dottedArgument? "lzma" "decompress").bind (·.dottedArgument? "base64" "b64decode")).bind
    Expr.bytes?

def ran? (e : Expr) : Option Expr := (e.soleArgument? "exec").or (e.soleArgument? "print")

/-- Whether a statement runs the compressed program. -/
def runsPayload : Stmt → Bool
  | .expr e => (((ran? e).bind compiled?).bind packed?).isSome
  | _ => false

def scan (source : String) : Bool :=
  match Module.parse source with
  | .ok m =>
    let stmts := Node.stmts m.nodes
    stmts.any (importsOnly "base64") && stmts.any (importsOnly "lzma") && stmts.any runsPayload
  | .error _ => false

/-- A literal of octets at the front: `b'`, a row, and a quote before a place where `rule`
succeeds. -/
def literalAt? (rule : List Char → Option Unit) (cs : List Char) : Option (List Char) := do
  let rest ← afterFront? ['b', '\''] cs
  let (row, _) ← shortestRow? (fun rest => (afterFront? ['\''] rest).bind rule) rest
  return ['b', '\''] ++ row ++ ['\'']

def firstLiteral? (text : String) : Option (List Char) :=
  firstMatch? (literalAt? fun _ => some ()) text.toList

/-- The first literal in a text that ends a line. -/
def lineLiteral? (text : String) : Option (List Char) :=
  firstMatch? (literalAt? fun rest => if rest.head? == some '\n' then some () else none) text.toList

def octets (literal : Option (List Char)) : Except Failure Bytes :=
  match literal with
  | none => .error (Failure.missingMarker "bytes literal not found")
  | some cs =>
    match Literal.StringLiteral.decode? cs with
    | some (.bytes b) => .ok b
    | _ =>
      .error ((Failure.payload "malformed bytes literal").note "literal" (.text (String.ofList cs)))

def unpackText (packed : Bytes) : Except DecodeError String := do
  decodeText (← Lzma.decompress packed)

def splitLast? (cs : List Char) : Option (List Char × List Char) :=
  (cut? [';'] cs.reverse).map fun (tail, front) => (front.reverse, tail.reverse)

/-- A name at the front, three or more underscores, and what follows it. -/
def name? (cs : List Char) : Option (List Char × List Char) :=
  let name := cs.takeWhile (· == '_')
  if name.length < 3 then none else some (name, cs.drop name.length)

/-- A quote before a semicolon or before the end, and what follows both. -/
def closing? : List Char → Option (List Char)
  | '"' :: ';' :: rest => some rest
  | ['"'] => some []
  | _ => none

/-- A declaration at the front, its name and its piece, and what follows it. -/
def declaration? (cs : List Char) : Option ((List Char × List Char) × List Char) := do
  let (name, rest) ← name? cs
  let (piece, rest) ← shortestRow? closing? (← afterFront? ['=', '"'] rest)
  return ((name, piece), rest)

/-- The pieces under their names, the latest declaration first. -/
def declarations (cs : List Char) : List (List Char × List Char) :=
  (allMatches declaration? cs).reverse

def namesIn (cs : List Char) : List (List Char) := allMatches name? cs

/-- A letter rotated by half the alphabet. -/
def rot13 (c : Char) : Char :=
  if ('a' ≤ c && c ≤ 'm') || ('A' ≤ c && c ≤ 'M') then Char.ofNat (c.toNat + 13)
  else if ('n' ≤ c && c ≤ 'z') || ('N' ≤ c && c ≤ 'Z') then Char.ofNat (c.toNat - 13)
  else c

/-- The text that four pieces make up. -/
def join : List (List Char) → Except Failure (List Char)
  | [a, b, c, d] => .ok (a.map rot13 ++ b ++ c.reverse ++ d)
  | pieces => .error (Failure.payload s!"expected four webhook pieces, found {pieces.length}")

/-- The text that is made up of the pieces that the last statement names. -/
def assembleWebhook (code : List Char) : Except Failure (List Char) :=
  match splitLast? code with
  | none => .error (Failure.missingMarker "no statement after the variables")
  | some (front, tail) =>
    if tail.isEmpty then .error (Failure.missingMarker "no statement after the variables")
    else
      match (namesIn tail).mapM fun name => (declarations front).lookup name with
      | none => .error (Failure.missingMarker "webhook piece is not declared")
      | some pieces => join pieces

/-- The program in the first literal of a source. -/
def secondStage (source : String) : Except Failure String := do
  let blob ← octets (firstLiteral? source)
  decoded (do unpackText (← Radix.decodeBase64 blob))

/-- The program in the first literal of the second stage that ends a line. -/
def thirdStage (second : String) : Except Failure String := do
  let packed ←
    (octets (lineLiteral? second)).mapError fun f => f.note "second_stage" (.text second)
  decoded (unpackText packed)

/-- The address that the third stage sends to, if it is one. -/
def webhook? (third : String) : Except Failure (Option String) := do
  let encoded ←
    (assembleWebhook third.toList).mapError fun f => f.note "third_stage" (.text third)
  let address ← decoded (Radix.decodeBase64 (Utf8.encode (String.ofList encoded)))
  return (Webhook.findInBytes address).head?

def unmask (source : String) : Except Failure (Option String) := do
  webhook? (← thirdStage (← secondStage source))

def report : Option String → String
  | some webhook => "Webhook:\n" ++ webhook
  | none => "No webhook found."

def schema : Schema := Unmasker.schema ⟨scan, unmask, report⟩

end Unmask.LzmaSpam
