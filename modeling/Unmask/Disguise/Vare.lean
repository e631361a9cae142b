import Unmask.Cipher.Text
import Unmask.Codec.Basic
import Unmask.Codec.Radix
import Unmask.Codec.Zlib
import Unmask.Disguise.Basic
import Unmask.Dispatch
import Unmask.Text.Basic

/-!
# Vare

Each layer holds a key and a sealed token. The octets in the token went through a row of encodings;
undone, these give the text of the next layer as a marshalled string. Layers are peeled while a text
looks like one.
-/
namespace Unmask.Vare

open Disguise Text

/-- What follows the head of a numbered function of the disguise at the front. -/
def afterHead? (cs : List Char) : Option (List Char) := do
  afterFront? "():".toList (← skipSome? isDecimalDigit (← afterFront? "def saint".toList cs))

def scan (source : String) : Bool :=
  let cs := source.toList
  occurs "__VareObfuscator__".toList cs || (firstMatch? afterHead? cs).isSome ||
    occurs "__mikey__".toList cs

/-- The longest row in quotes at the front before a text, the quotes included. -/
def quotedBefore? (next cs : List Char) : Option (List Char) :=
  match cs with
  | [] => none
  | quote :: rest =>
    if Literal.isQuote quote then
      (longestRow? (afterFront? (quote :: next)) rest).map fun (row, _) =>
        quote :: row ++ [quote]
    else none

/-- The literal that is assigned to a name at the front, before a text. -/
def assigned? (name : String) (next : String) (cs : List Char) : Option (List Char) := do
  let rest ← afterFront? name.toList cs
  let rest ← afterFront? ['='] (trimLeft rest)
  quotedBefore? next.toList (trimLeft rest)

/-- The octets of a literal: those in UTF-8 if it is text. -/
def octets? (literal : List Char) : Option Bytes :=
  (Literal.StringLiteral.decode? literal).map fun
    | .text s => Utf8.encode s
    | .bytes b => b

/-- The octets of the first literal that is assigned to a name before a text. -/
def literalOf (name next code : String) : Except Failure Bytes :=
  match firstMatch? (assigned? name next) code.toList with
  | none => .error (Failure.missingMarker s!"{name} not found")
  | some literal =>
    match octets? literal with
    | some b => .ok b
    | none =>
      .error ((Failure.payload s!"{name} is not a string literal").note "literal"
        (.text (String.ofList literal)))

def unscramble (data : Bytes) : Except DecodeError Bytes := do
  let data ← Radix.decodeBase32 (← Radix.decodeBase64 data)
  let data ← Radix.decodeBase64 (← Radix.decodeBase64 data)
  Zlib.decompress (← Radix.decodeBase32 (← Radix.decodeBase64 data.reverse))

/-- The text of marshalled octets, or a literal if they are no string. -/
def textOf (marshalled : Bytes) : String :=
  (Marshal.text? marshalled).getD (Literal.quoteBytes marshalled)

def openLayer (key data : Bytes) : Except Failure Bytes := do
  let encoded ← decoded (Radix.decodeBase64 key)
  let key ← (SealedToken.Key.decode encoded).mapError Failure.ofTokenError
  let token ← decoded (Hex.decodeSpaced data)
  (SealedToken.openToken key token).mapError Failure.ofTokenError

def peel (code : String) : Except Failure String := do
  let key ← literalOf "__mikey__" ";mydata" code
  let data ← literalOf "mydata" "" code
  return textOf (← decoded (unscramble (← openLayer key data)))

/-- A failure with the number of layers that were peeled and the text that was reached. -/
def stop (f : Failure) (steps : Nat) (code : String) : Failure :=
  (f.note "steps" (.text (toString steps))).note "partial" (.text code)

/-- Peels at most `n` further layers of `limit` in all. -/
def peelUpTo (limit : Nat) : Nat → Nat → String → Except Failure String
  | n, steps, code =>
    if !scan code then .ok code
    else
      match n with
      | 0 =>
        .error (stop (Failure.new .iterationLimitExceeded
          s!"vare did not finish within {limit} layers") steps code)
      | n + 1 =>
        match peel code with
        | .ok next => peelUpTo limit n (steps + 1) next
        | .error f => .error (stop f steps code)

def maxLayers : Nat := 100

def unmask (source : String) : Except Failure String := peelUpTo maxLayers maxLayers 0 source

def report (output : String) : String :=
  output ++ "\n\n" ++ "\n".intercalate (Webhook.find output)

def schema : Schema := Unmasker.schema ⟨scan, unmask, report⟩

end Unmask.Vare
