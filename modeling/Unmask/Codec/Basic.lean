import Unmask.Text.Utf8

/-!
# Errors, checksums and hexadecimal digits

What decoders of all kinds fail with, and the sums that compressed formats carry: Adler's, and the
remainders of binary polynomials in 32 and in 64 bits. Hexadecimal digits stand for octets in pairs,
the high one first.
-/
namespace Unmask

/-- Why octets cannot be decoded. -/
inductive DecodeError where
  | base64
  | base32
  /-- No digit stands at a place. -/
  | base85Character (position : Nat)
  /-- The group that starts at a place denotes more than 32 bits. -/
  | base85Overflow (position : Nat)
  | hex
  | zlib
  | lzma
  | utf8 (fault : Text.Utf8.Fault)
  deriving DecidableEq

def DecodeError.message : DecodeError → String
  | .base64 => "invalid base64 payload: wrong symbol, length or padding"
  | .base32 => "invalid base32 payload: wrong symbol, length or padding"
  | .base85Character position => s!"bad base85 character at position {position}"
  | .base85Overflow position => s!"base85 overflow in hunk starting at byte {position}"
  | .hex => "invalid hex payload: wrong digit or odd length"
  | .zlib => "zlib inflate failed: damaged or incomplete stream"
  | .lzma => "lzma decompression failed: damaged or incomplete stream"
  | .utf8 fault => "payload is not UTF-8: " ++ fault.message

def DecodeError.unlessSome {α : Type} (e : DecodeError) : Option α → Except DecodeError α
  | some a => .ok a
  | none => .error e

def decodeText (b : Bytes) : Except DecodeError String :=
  (Text.Utf8.decode b).mapError DecodeError.utf8

def isAsciiBlank (b : UInt8) : Bool :=
  b == 0x20 || b == 0x09 || b == 0x0A || b == 0x0C || b == 0x0D

namespace Checksum

/-- Two sums modulo 65521, the second one of the first ones. -/
def adler32 (data : Bytes) : Nat :=
  let (a, b) := data.foldl
    (fun (a, b) x =>
      let a := (a + x.toNat) % 65521
      (a, (b + a) % 65521))
    (1, 0)
  b * 65536 + a

/-- Takes in one bit, for a polynomial with its bits in reverse. -/
def remainderStep (polynomial n : UInt64) : UInt64 :=
  if n &&& 1 == 1 then (n >>> 1) ^^^ polynomial else n >>> 1

def remainderOctet (polynomial n : UInt64) (x : UInt8) : UInt64 :=
  (List.range 8).foldl (fun n _ => remainderStep polynomial n) (n ^^^ x.toUInt64)

/-- The remainder of data, with all bits inverted before and after. -/
def remainder (polynomial ones : UInt64) (data : Bytes) : UInt64 :=
  data.foldl (remainderOctet polynomial) ones ^^^ ones

def crc32 (data : Bytes) : Nat := (remainder 0xEDB88320 0xFFFFFFFF data).toNat

def crc64 (data : Bytes) : Nat := (remainder 0xC96C5795D7870F42 0xFFFFFFFFFFFFFFFF data).toNat

end Checksum

namespace Hex

/-- The value of a digit, with upper-case letters. -/
def upperDigit? (b : UInt8) : Option UInt8 :=
  if 0x30 ≤ b && b ≤ 0x39 then some (b - 0x30)
  else if 0x41 ≤ b && b ≤ 0x46 then some (b - 0x41 + 10)
  else none

/-- The value of a digit of either case. -/
def digit? (b : UInt8) : Option UInt8 :=
  if 0x61 ≤ b && b ≤ 0x66 then some (b - 0x61 + 10) else upperDigit? b

/-- The octets that pairs of digits denote. -/
def decodePairs? (value? : UInt8 → Option UInt8) : Bytes → Option Bytes
  | [] => some []
  | [_] => none
  | a :: b :: rest =>
    match value? a, value? b, decodePairs? value? rest with
    | some high, some low, some bytes => some ((high * 16 + low) :: bytes)
    | _, _, _ => none

def decode? (digits : Bytes) : Option Bytes := decodePairs? digit? digits

def decodeUpper? (digits : Bytes) : Option Bytes := decodePairs? upperDigit? digits

def decodeBase16 (digits : Bytes) : Except DecodeError Bytes :=
  DecodeError.hex.unlessSome (decodeUpper? digits)

/-- Decodes digits of either case, leaving out blanks. -/
def decodeSpaced (digits : Bytes) : Except DecodeError Bytes :=
  DecodeError.hex.unlessSome (decode? (digits.filter (!isAsciiBlank ·)))

end Hex

end Unmask
