/-!
# UTF-8

Octets to characters and back. `Front.of` looks at the first character of a sequence; reading a
whole sequence repeats it and reports the first place where the octets are no UTF-8, either by the
number of octets there that look like the start of a character or as an input that ends too early.
-/
namespace Unmask

abbrev Bytes := List UInt8

namespace Text.Utf8

/-- Why octets are not UTF-8; `index` counts the octets before the broken character. -/
inductive Fault where
  /-- The `length` octets at `index` are the longest start of a character there. -/
  | invalid (length index : Nat)
  /-- The input ends within the character at `index`. -/
  | incomplete (index : Nat)
  deriving DecidableEq, Repr

def Fault.message : Fault → String
  | .invalid length index => s!"invalid utf-8 sequence of {length} bytes from index {index}"
  | .incomplete index => s!"incomplete utf-8 byte sequence from index {index}"

/-- What stands at the front of a sequence of octets. -/
inductive Front where
  /-- A character of the given number of octets. -/
  | char (c : Char) (width : Nat)
  /-- No character; so many octets look like the start of one. -/
  | invalid (length : Nat)
  /-- The start of a character that the sequence does not finish. -/
  | incomplete
  deriving DecidableEq, Repr

/-- Octets that follow the first one of a character. -/
def isTail (b : UInt8) : Bool := 0x80 ≤ b && b ≤ 0xBF

/-- Whether `b` may follow `a` in a character of three octets: neither an overlong form nor a
surrogate. -/
def isSecondOfThree (a b : UInt8) : Bool :=
  if a == 0xE0 then 0xA0 ≤ b && b ≤ 0xBF
  else if a == 0xED then 0x80 ≤ b && b ≤ 0x9F
  else isTail b

/-- Whether `b` may follow `a` in a character of four octets: neither an overlong form nor a code
point above U+10FFFF. -/
def isSecondOfFour (a b : UInt8) : Bool :=
  if a == 0xF0 then 0x90 ≤ b && b ≤ 0xBF
  else if a == 0xF4 then 0x80 ≤ b && b ≤ 0x8F
  else isTail b

/-- The low six bits of an octet that follows. -/
def tailBits (b : UInt8) : Nat := b.toNat - 0x80

def Front.ofTwo (a : UInt8) : Bytes → Front
  | b :: _ =>
    if isTail b then .char (Char.ofNat ((a.toNat - 0xC0) * 64 + tailBits b)) 2 else .invalid 1
  | [] => .incomplete

def Front.ofThree (a : UInt8) : Bytes → Front
  | b :: c :: _ =>
    if !isSecondOfThree a b then .invalid 1
    else if !isTail c then .invalid 2
    else .char (Char.ofNat ((a.toNat - 0xE0) * 4096 + tailBits b * 64 + tailBits c)) 3
  | [b] => if isSecondOfThree a b then .incomplete else .invalid 1
  | [] => .incomplete

def Front.ofFour (a : UInt8) : Bytes → Front
  | b :: c :: d :: _ =>
    if !isSecondOfFour a b then .invalid 1
    else if !isTail c then .invalid 2
    else if !isTail d then .invalid 3
    else
      .char (Char.ofNat
        ((a.toNat - 0xF0) * 262144 + tailBits b * 4096 + tailBits c * 64 + tailBits d)) 4
  | [b, c] =>
    if !isSecondOfFour a b then .invalid 1 else if isTail c then .incomplete else .invalid 2
  | [b] => if isSecondOfFour a b then .incomplete else .invalid 1
  | [] => .incomplete

/-- The front of the sequence that starts with `a` and goes on with `rest`. -/
def Front.of (a : UInt8) (rest : Bytes) : Front :=
  if a < 0x80 then .char (Char.ofNat a.toNat) 1
  else if 0xC2 ≤ a && a ≤ 0xDF then .ofTwo a rest
  else if 0xE0 ≤ a && a ≤ 0xEF then .ofThree a rest
  else if 0xF0 ≤ a && a ≤ 0xF4 then .ofFour a rest
  else .invalid 1

/-- Reads octets from `index` on, after leaving out `skip` octets that belong to the last
character. The characters read so far are in `done`, the last one first. -/
def decodeFrom : Nat → Nat → List Char → Bytes → Except Fault (List Char)
  | _, _, done, [] => .ok done.reverse
  | skip + 1, index, done, _ :: rest => decodeFrom skip (index + 1) done rest
  | 0, index, done, a :: rest =>
    match Front.of a rest with
    | .char c width => decodeFrom (width - 1) (index + 1) (c :: done) rest
    | .invalid length => .error (.invalid length index)
    | .incomplete => .error (.incomplete index)

def decodeChars (bytes : Bytes) : Except Fault (List Char) := decodeFrom 0 0 [] bytes

def decode (bytes : Bytes) : Except Fault String := (decodeChars bytes).map String.ofList

/-- Reads like `decodeFrom`, with a replacement character for each broken place. -/
def repairFrom : Nat → List Char → Bytes → List Char
  | _, done, [] => done.reverse
  | skip + 1, done, _ :: rest => repairFrom skip done rest
  | 0, done, a :: rest =>
    match Front.of a rest with
    | .char c width => repairFrom (width - 1) (c :: done) rest
    | .invalid length => repairFrom (length - 1) ('\uFFFD' :: done) rest
    | .incomplete => ('\uFFFD' :: done).reverse

/-- The text of a sequence of octets, each broken place replaced by U+FFFD. -/
def repair (bytes : Bytes) : String := String.ofList (repairFrom 0 [] bytes)

def encode (s : String) : Bytes := s.toUTF8.data.toList

end Text.Utf8
end Unmask
