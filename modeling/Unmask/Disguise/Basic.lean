import Unmask.Cipher.Text
import Unmask.Codec.Lzma.Stream
import Unmask.Layers
import Unmask.Syntax.Literal
import Unmask.Text.Basic

/-!
# What disguises have in common

Errors of decoding and decryption are failures, with what was to be decoded as evidence. Programs
that steal data send it to a web address at which a chat service takes messages, so such addresses
in an unmasked program are reported.

A marshalled code object keeps a payload in a string constant: a header of a mark and a length, the
payload, and the trailer that follows it. The payload is looked for at the place where it stands in
freshly compiled code, then behind all headers.
-/
namespace Unmask

namespace Failure

def ofDecodeError (e : DecodeError) : Failure := payload e.message

def ofTokenError (e : TokenError) : Failure := payload e.message

def ofCipherError (e : CipherError) : Failure := payload e.message

end Failure

namespace Disguise

variable {α ε : Type}

/-- A result whose error becomes a failure with a piece of evidence. -/
def witnessed (toFailure : ε → Failure) (name : String) (evidence : Diagnostic) (r : Except ε α) :
    Except Failure α :=
  r.mapError fun e => (toFailure e).note name evidence

def decoded (r : Except DecodeError α) : Except Failure α := r.mapError Failure.ofDecodeError

/-- Reads a program; if it is none, its text is the evidence. -/
def readProgram (name : String) (source : String) : Except Failure Module :=
  witnessed Failure.ofSyntaxError name (.text source) (Module.parse source)

def readOctets (name : String) (octets : Bytes) : Except Failure Module := do
  readProgram name (← decoded (decodeText octets))

end Disguise

namespace Webhook
open Unmask.Text Unmask.Literal

def skipOptional (front cs : List Char) : List Char := (afterFront? front cs).getD cs

def skipHost (cs : List Char) : List Char :=
  match afterFront? "canary.".toList cs with
  | some rest => rest
  | none => skipOptional "ptb.".toList cs

def skip? (cs : List Char) : Option (List Char) := do
  let cs ← afterFront? "http".toList cs
  let cs ← afterFront? "://".toList (skipOptional ['s'] cs)
  let cs ← afterFront? "discord".toList (skipHost cs)
  let cs ← afterFront? ".com/api/webhooks/".toList (skipOptional "app".toList cs)
  let cs ← skipSome? isDecimalDigit cs
  let cs ← afterFront? ['/'] cs
  skipSome? (fun c => isWord c || c == '-') cs

/-- An address at the front, and what follows it. -/
def address? (cs : List Char) : Option (List Char × List Char) :=
  (skip? cs).map fun after => (cs.take (cs.length - after.length), after)

/-- The addresses in a text, each once. -/
def find (s : String) : List String := ((allMatches address? s.toList).map String.ofList).eraseDups

/-- The addresses in octets. Those that form no characters belong to no address. -/
def findInBytes (b : Bytes) : List String := find (Utf8.repair b)

def report (found : List String) : String :=
  if found.isEmpty then "No webhooks found." else "Webhooks:\n" ++ "\n".intercalate found

/-- A text with a report of the addresses in it, if there are any. -/
def appendReport (output : String) : String :=
  let found := find output
  if found.isEmpty then output else output ++ "\n\n" ++ report found

end Webhook

namespace Marshal

/-- The place of the header in freshly compiled code. -/
def usualPlace : Nat := 73

def mark : Bytes := [0x02, 0x73]

def trailer : Bytes := [0x4E, 0x29]

/-- The payload of a length at the front, if the trailer follows it. -/
def payloadAtFront? (length : Nat) (rest : Bytes) : Option Bytes :=
  let payload := rest.take length
  if payload.length == length && (rest.drop length).take trailer.length == trailer then some payload
  else none

/-- The payload behind a header at the front. -/
def payloadOfHeader? : Bytes → Option Bytes
  | 0x02 :: 0x73 :: a :: b :: c :: d :: rest =>
    payloadAtFront? (Lzma.littleEndian [a, b, c, d]) rest
  | _ => none

/-- A header: where it ends, the length it tells, and the octets behind it. -/
structure Header where
  stop : Nat
  length : Nat
  rest : Bytes

/-- The headers from a place on that do not overlap, after leaving out `covered` octets. -/
def headersFrom : Nat → Nat → Bytes → List Header
  | _, _, [] => []
  | covered + 1, position, _ :: rest => headersFrom covered (position + 1) rest
  | 0, position, first :: rest =>
    match first :: rest with
    | 0x02 :: 0x73 :: a :: b :: c :: d :: behind =>
      ⟨position + 6, Lzma.littleEndian [a, b, c, d], behind⟩ :: headersFrom 5 (position + 1) rest
    | _ => headersFrom 0 (position + 1) rest

def headers (data : Bytes) : List Header := headersFrom 0 0 data

/-- The payloads behind headers. A header that ends before `resume` is part of the last payload. If
one has no trailer there are none. -/
def payloads? (resume : Nat) : List Header → Option (List Bytes)
  | [] => some []
  | h :: rest =>
    if h.stop < resume then payloads? resume rest
    else
      (payloadAtFront? h.length h.rest).bind fun payload =>
        (payloads? (h.stop + h.length + trailer.length) rest).map (payload :: ·)

/-- The only payload behind a header. -/
def searchPayload (data : Bytes) : Except Failure Bytes :=
  let evidence := Diagnostic.bytes data
  match payloads? 0 (headers data) with
  | none =>
    .error ((Failure.payload "marshal length does not match its trailer").note "marshalled_bytes"
      evidence)
  | some [] =>
    .error ((Failure.missingMarker "no marshalled string payload found").note "marshalled_bytes"
      evidence)
  | some [payload] => .ok payload
  | some found =>
    .error (((Failure.ambiguous "several marshalled payloads found").note "marshalled_bytes"
      evidence).note "payloads" (.list (found.map Diagnostic.bytes)))

def findPayload (data : Bytes) : Except Failure Bytes :=
  match payloadOfHeader? (data.drop usualPlace) with
  | some payload => .ok payload
  | none => searchPayload data

/-- The text of a marshalled string that makes up all of the data. -/
def text? : Bytes → Option String
  | 0x73 :: a :: b :: c :: d :: payload =>
    if Lzma.littleEndian [a, b, c, d] == payload.length then (Text.Utf8.decode payload).toOption
    else none
  | _ => none

end Marshal

end Unmask
