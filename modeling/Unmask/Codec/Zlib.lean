import Unmask.Codec.Basic
import Unmask.Text.Utf8

/-!
# Deflate and zlib

A compressed stream is a row of blocks, each of them stored as it is or written in two prefix codes:
one for octets, lengths of copies and the end of the block, and one for distances of copies. Zlib
puts the stream behind a header of two octets and before a checksum; what follows the checksum does
not matter.
-/
namespace Unmask.Deflate

/-- The bits still to read, the first one of an octet being its lowest. -/
abbrev Bits := List Bool

def bitsOf (data : Bytes) : Bits :=
  data.flatMap fun b => (List.range 8).map fun i => (b.toNat >>> i) % 2 == 1

/-- Reads a number of so many bits, the lowest one first. -/
def number? : Nat → Bits → Option (Nat × Bits)
  | 0, bits => some (0, bits)
  | _ + 1, [] => none
  | n + 1, b :: rest => (number? n rest).map fun (v, rest) => (2 * v + b.toNat, rest)

def align (bits : Bits) : Bits := bits.drop (bits.length % 8)

/-- A prefix code in which the codes of one length are in a row, those of greater lengths behind. -/
structure Code where
  /-- The number of codes of each length. -/
  counts : List Nat
  /-- The symbols in the order of their codes. -/
  symbols : Array Nat

def maxCodeLength : Nat := 15

/-- How many codes of the greatest length could still be added; negative if there are too many. -/
def freeCodes (counts : List Nat) : Int :=
  counts.foldl (fun (free : Int) (count : Nat) => 2 * free - count) 1

/-- The code in which symbol `i` has the `i`-th of the given lengths, `0` for none. All bit rows
must have a meaning, unless there is at most one code. -/
def Code.ofLengths? (lengths : List Nat) : Option Code :=
  let counts := (List.range maxCodeLength).map fun i => lengths.countP (· == i + 1)
  let ofLength (n : Nat) : List Nat :=
    lengths.zipIdx.filterMap fun (length, symbol) => if length == n then some symbol else none
  let symbols := (List.range maxCodeLength).flatMap fun i => ofLength (i + 1)
  let free := freeCodes counts
  if free < 0 || (free != 0 && 1 < symbols.length) then none else some ⟨counts, symbols.toArray⟩

/-- Reads a symbol. `first` is the first code of the present length, `index` the number of shorter
codes, `code` the bits read. -/
def Code.symbolFrom? (c : Code) (first index code : Nat) : List Nat → Bits → Option (Nat × Bits)
  | count :: counts, b :: rest =>
    let code := 2 * code + b.toNat
    let first := 2 * first
    if code < first + count then
      (c.symbols[index + (code - first)]?).map fun symbol => (symbol, rest)
    else c.symbolFrom? (first + count) (index + count) code counts rest
  | _, _ => none

def Code.symbol? (c : Code) (bits : Bits) : Option (Nat × Bits) := c.symbolFrom? 0 0 0 c.counts bits

/-- The base and the number of extra bits of the `n`-th length or distance. Each run of `width`
entries has one more bit than the last. -/
def baseAndExtra (width start : Nat) (n : Nat) : Nat × Nat :=
  if n < 2 * width then (start + n, 0)
  else
    let extra := n / width - 1
    (start + (width + n % width) * Nat.pow 2 extra, extra)

/-- The length that a symbol from 257 on denotes. -/
def copyLength? (symbol : Nat) (bits : Bits) : Option (Nat × Bits) :=
  if symbol == 285 then some (258, bits)
  else if 285 < symbol then none
  else
    let (base, extra) := baseAndExtra 4 3 (symbol - 257)
    (number? extra bits).map fun (n, rest) => (base + n, rest)

/-- The distance that a symbol denotes. -/
def copyDistance? (symbol : Nat) (bits : Bits) : Option (Nat × Bits) :=
  if 29 < symbol then none
  else
    let (base, extra) := baseAndExtra 2 1 symbol
    (number? extra bits).map fun (n, rest) => (base + n, rest)

/-- Repeats octets from so far back. -/
def copyBack (distance : Nat) : Nat → Array UInt8 → Array UInt8
  | 0, out => out
  | n + 1, out => copyBack distance n (out.push (out.getD (out.size - distance) 0))

/-- Reads at most `n` symbols of a block up to its end. -/
def symbols? (literals distances : Code) : Nat → Array UInt8 → Bits → Option (Array UInt8 × Bits)
  | 0, _, _ => none
  | n + 1, out, bits => do
    let (symbol, bits) ← literals.symbol? bits
    if symbol < 256 then symbols? literals distances n (out.push (UInt8.ofNat symbol)) bits
    else if symbol == 256 then return (out, bits)
    else
      let (length, bits) ← copyLength? symbol bits
      let (symbol, bits) ← distances.symbol? bits
      let (distance, bits) ← copyDistance? symbol bits
      if out.size < distance then none
      else symbols? literals distances n (copyBack distance length out) bits

def stored? : Nat → Array UInt8 → Bits → Option (Array UInt8 × Bits)
  | 0, out, bits => some (out, bits)
  | n + 1, out, bits => do
    let (octet, bits) ← number? 8 bits
    stored? n (out.push (UInt8.ofNat octet)) bits

/-- Reads a stored block: its length, the same inverted, and the octets. -/
def storedBlock? (out : Array UInt8) (bits : Bits) : Option (Array UInt8 × Bits) := do
  let (length, bits) ← number? 16 (align bits)
  let (inverse, bits) ← number? 16 bits
  if length + inverse == 0xFFFF then stored? length out bits else none

/-- The lengths of the codes that are fixed once and for all. -/
def fixedLengths : List Nat :=
  List.replicate 144 8 ++ List.replicate 112 9 ++ List.replicate 24 7 ++ List.replicate 8 8

/-- The order in which the lengths of the code for code lengths are written. -/
def lengthOrder : List Nat := [16, 17, 18, 0, 8, 7, 9, 6, 10, 5, 11, 4, 12, 3, 13, 2, 14, 1, 15]

def shortNumbers? : Nat → Bits → Option (List Nat × Bits)
  | 0, bits => some ([], bits)
  | n + 1, bits => do
    let (v, bits) ← number? 3 bits
    let (rest, bits) ← shortNumbers? n bits
    return (v :: rest, bits)

/-- How often which length is repeated after symbol 16, 17 or 18. -/
def repeated? (symbol : Nat) (last : Option Nat) (bits : Bits) : Option ((Nat × Nat) × Bits) :=
  if symbol == 16 then do
    let last ← last
    let (n, bits) ← number? 2 bits
    return ((n + 3, last), bits)
  else if symbol == 17 then (number? 3 bits).map fun (n, bits) => ((n + 3, 0), bits)
  else (number? 7 bits).map fun (n, bits) => ((n + 11, 0), bits)

/-- Reads code lengths until there are `total`; those read so far are in `done`, the last first. -/
def codeLengths? (c : Code) (total : Nat) : Nat → List Nat → Bits → Option (List Nat × Bits)
  | 0, _, _ => none
  | n + 1, done, bits =>
    if total ≤ done.length then
      if total == done.length then some (done.reverse, bits) else none
    else do
      let (symbol, bits) ← c.symbol? bits
      if symbol < 16 then codeLengths? c total n (symbol :: done) bits
      else
        let ((count, length), bits) ← repeated? symbol done.head? bits
        codeLengths? c total n (List.replicate count length ++ done) bits

/-- Reads the two codes of a block: at most 286 of the one kind and 30 of the other. -/
def blockCodes? (bits : Bits) : Option ((Code × Code) × Bits) := do
  let (literals, bits) ← number? 5 bits
  let (distances, bits) ← number? 5 bits
  guard (literals + 257 ≤ 286 ∧ distances + 1 ≤ 30)
  let (lengths, bits) ← number? 4 bits
  let (short, bits) ← shortNumbers? (lengths + 4) bits
  let ordered := lengthOrder.zip short
  let code ← Code.ofLengths? ((List.range 19).map fun i => (ordered.lookup i).getD 0)
  let total := literals + 257 + (distances + 1)
  let (lengths, bits) ← codeLengths? code total (total + 1) [] bits
  let literalCode ← Code.ofLengths? (lengths.take (literals + 257))
  let distanceCode ← Code.ofLengths? (lengths.drop (literals + 257))
  return ((literalCode, distanceCode), bits)

def fixedCodes? : Option (Code × Code) := do
  let literals ← Code.ofLengths? fixedLengths
  let distances ← Code.ofLengths? (List.replicate 32 5)
  return (literals, distances)

def block? (type : Nat) (out : Array UInt8) (bits : Bits) : Option (Array UInt8 × Bits) :=
  if type == 0 then storedBlock? out bits
  else if type == 1 then do
    let (literals, distances) ← fixedCodes?
    symbols? literals distances bits.length out bits
  else if type == 2 then do
    let ((literals, distances), bits) ← blockCodes? bits
    symbols? literals distances bits.length out bits
  else none

/-- Reads at most `n` blocks up to the last one. -/
def blocks? : Nat → Array UInt8 → Bits → Option (Array UInt8 × Bits)
  | 0, _, _ => none
  | n + 1, out, bits => do
    let (final, bits) ← number? 1 bits
    let (type, bits) ← number? 2 bits
    let (out, bits) ← block? type out bits
    if final == 1 then return (out, bits) else blocks? n out bits

/-- The octets that a stream denotes, and the bits behind it. -/
def inflate? (bits : Bits) : Option (Bytes × Bits) :=
  (blocks? bits.length #[] bits).map fun (out, rest) => (out.toList, rest)

end Unmask.Deflate

namespace Unmask.Zlib

/-- Whether two octets are the header of a stream without a preset dictionary. -/
def isHeader (method flags : UInt8) : Bool :=
  method &&& 0x0F == 8 && method >>> 4 ≤ 7 && (method.toNat * 256 + flags.toNat) % 31 == 0 &&
    flags &&& 0x20 == 0

/-- Reads a number of four octets, the highest one first. -/
def bigEndian? (bits : Deflate.Bits) : Option Nat := do
  let (a, bits) ← Deflate.number? 8 bits
  let (b, bits) ← Deflate.number? 8 bits
  let (c, bits) ← Deflate.number? 8 bits
  let (d, _) ← Deflate.number? 8 bits
  return ((a * 256 + b) * 256 + c) * 256 + d

def decompress? (data : Bytes) : Option Bytes :=
  match data with
  | method :: flags :: rest =>
    if isHeader method flags then do
      let (out, bits) ← Deflate.inflate? (Deflate.bitsOf rest)
      let checksum ← bigEndian? (Deflate.align bits)
      if checksum == Checksum.adler32 out then some out else none
    else none
  | _ => none

def decompress (data : Bytes) : Except DecodeError Bytes :=
  DecodeError.zlib.unlessSome (decompress? data)

end Unmask.Zlib
