import Unmask.Codec.Basic
import Unmask.Text.Basic

/-!
# Base 64, base 32 and base 85

Octets written in groups of symbols, each symbol for the same number of bits. A group may end in
padding; the symbols before it then denote whole octets and a rest of zero bits. Each group is read
alone, so padding may also stand before another group.

In base 85 five digits denote 32 bits. A short group at the end is read as if it went on with the
greatest digit, and gives one octet less than it has digits.
-/
namespace Unmask.Radix

/-- The symbols of an encoding, and how many of them make a group. -/
structure Alphabet where
  bits : Nat
  groupSize : Nat
  digit? : UInt8 → Option Nat

def padding : UInt8 := 0x3D

/-- A symbol among the letters of both cases and the digits, then two further ones. -/
def base64Digit? (plus slash : UInt8) (b : UInt8) : Option Nat :=
  let n := b.toNat
  if 0x41 ≤ n && n ≤ 0x5A then some (n - 0x41)
  else if 0x61 ≤ n && n ≤ 0x7A then some (n - 0x61 + 26)
  else if 0x30 ≤ n && n ≤ 0x39 then some (n - 0x30 + 52)
  else if b == plus then some 62
  else if b == slash then some 63
  else none

def base32Digit? (b : UInt8) : Option Nat :=
  let n := b.toNat
  if 0x41 ≤ n && n ≤ 0x5A then some (n - 0x41)
  else if 0x32 ≤ n && n ≤ 0x37 then some (n - 0x32 + 26)
  else none

def base64 : Alphabet := ⟨6, 4, base64Digit? 0x2B 0x2F⟩

/-- Base 64 with symbols that may stand in web addresses. -/
def base64Url : Alphabet := ⟨6, 4, base64Digit? 0x2D 0x5F⟩

def base32 : Alphabet := ⟨5, 8, base32Digit?⟩

/-- The lowest `count` octets of a number, the highest one first. -/
def octets : Nat → Nat → Bytes
  | 0, _ => []
  | count + 1, n => UInt8.ofNat (n / Nat.pow 256 count) :: octets count n

def number? (a : Alphabet) (symbols : Bytes) : Option Nat :=
  symbols.foldl (fun n b => n.bind fun n => (a.digit? b).map (n * Nat.pow 2 a.bits + ·)) (some 0)

def decodeGroup? (a : Alphabet) (group : Bytes) : Option Bytes :=
  let symbols := (group.reverse.dropWhile (· == padding)).reverse
  let count := symbols.length * a.bits / 8
  let rest := symbols.length * a.bits % 8
  (number? a symbols).bind fun n =>
    if count == 0 || a.bits ≤ rest || n % Nat.pow 2 rest != 0 then none
    else some (octets count (n / Nat.pow 2 rest))

/-- The octets of at most `n` groups. -/
def decodeGroups? (a : Alphabet) : Nat → Bytes → Option Bytes
  | _, [] => some []
  | 0, _ :: _ => none
  | n + 1, symbols =>
    let group := symbols.take a.groupSize
    if group.length < a.groupSize then none
    else
      (decodeGroup? a group).bind fun front =>
        (decodeGroups? a n (symbols.drop a.groupSize)).map (front ++ ·)

def decode? (a : Alphabet) (symbols : Bytes) : Option Bytes :=
  decodeGroups? a symbols.length symbols

/-- Whether an octet is a symbol of base 64 or padding. -/
def isBase64Symbol (b : UInt8) : Bool := (base64.digit? b).isSome || b == padding

def decodeBase64 (data : Bytes) : Except DecodeError Bytes :=
  DecodeError.base64.unlessSome (decode? base64 (data.filter isBase64Symbol))

def trimBlanks (data : Bytes) : Bytes :=
  ((data.dropWhile isAsciiBlank).reverse.dropWhile isAsciiBlank).reverse

def decodeBase64Url (data : Bytes) : Except DecodeError Bytes :=
  DecodeError.base64.unlessSome (decode? base64Url (trimBlanks data))

def decodeBase32 (data : Bytes) : Except DecodeError Bytes :=
  DecodeError.base32.unlessSome (decode? base32 data)

end Unmask.Radix

namespace Unmask.Base85

/-- The digits in the order of their values. -/
def digits : Bytes :=
  Text.Utf8.encode
    ("0123456789ABCDEFGHIJKLMNOPQRSTUVWXYZabcdefghijklmnopqrstuvwxyz" ++
      "!#$%&()*+-;<=>?@^_`\x7b|\x7d~")

def digit? (b : UInt8) : Option Nat := digits.findIdx? (· == b)

/-- The values of the digits of a group that starts at a place. -/
def values (position : Nat) : Bytes → Except DecodeError (List Nat)
  | [] => .ok []
  | b :: rest =>
    match digit? b with
    | none => .error (.base85Character position)
    | some v => (values (position + 1) rest).map (v :: ·)

/-- The octets of a group of at most five digits. -/
def decodeGroup (position : Nat) (group : Bytes) : Except DecodeError Bytes := do
  let missing := 5 - group.length
  let values ← values position group
  let word := (values ++ List.replicate missing 84).foldl (fun n v => n * 85 + v) 0
  if Nat.pow 2 32 ≤ word then .error (.base85Overflow position)
  else return (Radix.octets 4 word).take (4 - missing)

/-- The octets of at most `n` groups, the first of which starts at a place. -/
def decodeGroups : Nat → Nat → Bytes → Except DecodeError Bytes
  | 0, _, _ => .ok []
  | n + 1, position, data =>
    if data.isEmpty then .ok []
    else do
      let front ← decodeGroup position (data.take 5)
      return front ++ (← decodeGroups n (position + 5) (data.drop 5))

def decode (data : Bytes) : Except DecodeError Bytes := decodeGroups data.length 0 data

end Unmask.Base85
