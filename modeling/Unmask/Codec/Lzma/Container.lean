import Unmask.Codec.Basic
import Unmask.Codec.Lzma.Stream

/-!
# Chunks and containers

A row of chunks, each of them stored as it is or compressed. A chunk tells what is started over:
nothing, the contexts, the parameters too, or the output that can be copied from as well.

A container holds blocks of such rows with checksums, an index of the blocks, and a footer that
repeats what the header says. Data without the container's mark is a bare stream.
-/
namespace Unmask.Lzma

/-- What is known between two chunks. -/
structure Chunked where
  /-- Output that can no longer be copied from. -/
  settled : Bytes
  progress : Progress
  properties : Properties
  expected : Array UInt32

def Chunked.start : Chunked :=
  let p : Properties := ⟨0, 0, 0⟩
  ⟨[], Progress.start #[], p, Context.fresh p⟩

def Chunked.output (c : Chunked) : Bytes := c.settled ++ c.progress.window.toList

/-- Starts over with the output that can be copied from. -/
def Chunked.settle (c : Chunked) : Chunked :=
  { c with settled := c.output, progress := { c.progress with window := #[] } }

/-- Starts over with the contexts. -/
def Chunked.restart (c : Chunked) (p : Properties) : Chunked :=
  { c with
    progress := Progress.start c.progress.window, properties := p, expected := Context.fresh p }

/-- A number of two octets, the highest one first. -/
def bigEndian? : Bytes → Option (Nat × Bytes)
  | a :: b :: rest => some (a.toNat * 256 + b.toNat, rest)
  | _ => none

def split? (n : Nat) (data : Bytes) : Option (Bytes × Bytes) :=
  if data.length < n then none else some (data.take n, data.drop n)

def storedChunk? (c : Chunked) (data : Bytes) : Option (Chunked × Bytes) := do
  let (size, data) ← bigEndian? data
  let (stored, data) ← split? (size + 1) data
  return ({ c with progress := { c.progress with window := c.progress.window ++ stored } }, data)

/-- The parameters that stand in front of a chunk, if it brings any. -/
def chunkProperties? (reset : Nat) (c : Chunked) (data : Bytes) : Option (Properties × Bytes) :=
  if reset < 2 then some (c.properties, data)
  else
    match data with
    | [] => none
    | b :: rest =>
      (Properties.ofOctet? b).bind fun p =>
        if 4 < p.literalContext + p.literalPlace then none else some (p, rest)

def compressedChunk? (control : Nat) (c : Chunked) (data : Bytes) : Option (Chunked × Bytes) := do
  let reset := control / 32 % 4
  let (low, data) ← bigEndian? data
  let size := control % 32 * 65536 + low + 1
  let (packed, data) ← bigEndian? data
  let c := if reset == 3 then c.settle else c
  let (p, data) ← chunkProperties? reset c data
  let c := if reset == 0 then c else c.restart p
  let (packed, data) ← split? (packed + 1) data
  let total := c.progress.window.size + size
  let (progress, decoder) ←
    run? c.properties (Nat.pow 2 32) (some total) packed c.expected c.progress
  return ({ c with progress, expected := decoder.expected }, data)

/-- Reads at most `n` chunks up to the end mark. -/
def chunks? : Nat → Chunked → Bytes → Option (Bytes × Bytes)
  | n + 1, c, control :: data => do
    let control := control.toNat
    if control == 0 then return (c.output, data)
    else if control == 1 then
      let (c, data) ← storedChunk? c.settle data
      chunks? n c data
    else if control == 2 then
      let (c, data) ← storedChunk? c data
      chunks? n c data
    else if control < 0x80 then none
    else
      let (c, data) ← compressedChunk? control c data
      chunks? n c data
  | _, _, _ => none

/-- The output of chunks, and the octets behind them. -/
def unchunk? (data : Bytes) : Option (Bytes × Bytes) := chunks? data.length Chunked.start data

def magic : Bytes := [0xFD, 0x37, 0x7A, 0x58, 0x5A, 0x00]

/-- The checksum of the blocks' contents. -/
inductive Check where
  | none | crc32 | crc64
  deriving DecidableEq, Repr

def Check.ofOctet? (b : UInt8) : Option Check :=
  match b.toNat with
  | 0 => some .none
  | 1 => some .crc32
  | 4 => some .crc64
  | _ => Option.none

def Check.size : Check → Nat
  | .none => 0
  | .crc32 => 4
  | .crc64 => 8

def Check.sum : Check → Bytes → Nat
  | .none, _ => 0
  | .crc32, data => Checksum.crc32 data
  | .crc64, data => Checksum.crc64 data

/-- What a condition allows to go on. -/
def require (holds : Bool) : Option Unit := if holds then some () else none

/-- Reads octets that must be the checksum of others. -/
def crc32Of? (covered data : Bytes) : Option Bytes := do
  let (sum, rest) ← split? 4 data
  require (littleEndian sum == Checksum.crc32 covered)
  return rest

/-- Reads a number in pieces of seven bits, the lowest first, of at most `n` octets. -/
def sevenBits? : Nat → Bytes → Option (Nat × Bytes)
  | n + 1, b :: rest =>
    if b < 0x80 then some (b.toNat, rest)
    else (sevenBits? n rest).map fun (v, rest) => (b.toNat - 0x80 + 128 * v, rest)
  | _, _ => none

def number? (data : Bytes) : Option (Nat × Bytes) := sevenBits? 9 data

def optional? (present : Bool) (data : Bytes) : Option (Option Nat × Bytes) :=
  if present then (number? data).map fun (v, rest) => (some v, rest) else some (none, data)

/-- Reads zeros up to a multiple of four octets, of which `used` are used. -/
def padding? (used : Nat) (data : Bytes) : Option Bytes := do
  let (zeros, rest) ← split? ((4 - used % 4) % 4) data
  require (zeros.all (· == 0))
  return rest

/-- The sizes that the header of a block tells. -/
structure BlockHeader where
  packed : Option Nat
  unpacked : Option Nat

/-- Reads the fields of a header. There must be one filter, that of chunked streams. -/
def blockFields? (fields : Bytes) : Option BlockHeader := do
  match fields with
  | [] => none
  | flags :: rest =>
    let flags := flags.toNat
    require (flags % 64 == 0)
    let (packed, rest) ← optional? (flags / 64 % 2 == 1) rest
    let (unpacked, rest) ← optional? (flags / 128 == 1) rest
    let (filter, rest) ← number? rest
    let (size, rest) ← number? rest
    let (_, rest) ← split? size rest
    require (filter == 0x21 && size == 1 && rest.all (· == 0))
    return ⟨packed, unpacked⟩

/-- The unpadded size of a block with its contents' size. -/
abbrev BlockRecord := Nat × Nat

/-- Whether a size is as it was told, if it was told. -/
def agrees (told : Option Nat) (size : Nat) : Bool := told.all (· == size)

/-- Reads a block whose first octet gives the size of its header. -/
def block? (check : Check) (data : Bytes) : Option ((Bytes × BlockRecord) × Bytes) := do
  let first ← data.head?
  let headerSize := (first.toNat + 1) * 4
  let (header, rest) ← split? (headerSize - 4) data
  let rest ← crc32Of? header rest
  let fields ← blockFields? (header.drop 1)
  let (contents, after) ← unchunk? rest
  let packed := rest.length - after.length
  require (agrees fields.packed packed && agrees fields.unpacked contents.length)
  let after ← padding? packed after
  let (sum, after) ← split? check.size after
  require (littleEndian sum == check.sum contents)
  return ((contents, (headerSize + packed + check.size, contents.length)), after)

def records? : List BlockRecord → Bytes → Option Bytes
  | [], data => some data
  | (unpadded, size) :: rest, data => do
    let (u, data) ← number? data
    let (s, data) ← number? data
    require (u == unpadded && s == size)
    records? rest data

/-- Reads the index of blocks; tells how long it is. -/
def index? (blocks : List BlockRecord) (data : Bytes) : Option (Nat × Bytes) := do
  let (count, rest) ← number? (data.drop 1)
  require (count == blocks.length)
  let rest ← records? blocks rest
  let used := data.length - rest.length
  let rest ← padding? used rest
  let size := data.length - rest.length
  let rest ← crc32Of? (data.take size) rest
  return (size + 4, rest)

/-- Reads the footer, behind which nothing may stand. -/
def footer? (flags : Bytes) (indexSize : Nat) (data : Bytes) : Option Unit := do
  let (sum, rest) ← split? 4 data
  let (covered, rest) ← split? 6 rest
  require (littleEndian sum == Checksum.crc32 covered)
  require ((littleEndian (covered.take 4) + 1) * 4 == indexSize)
  require (covered.drop 4 == flags && rest == [0x59, 0x5A])

/-- Reads at most `n` blocks, the index and the footer. -/
def body? (check : Check) (flags : Bytes) :
    Nat → Bytes → List BlockRecord → Bytes → Option Bytes
  | 0, _, _, _ => none
  | n + 1, out, blocks, data => do
    if data.head? == some 0 then
      let (size, rest) ← index? blocks data
      footer? flags size rest
      return out
    else
      let ((contents, record), rest) ← block? check data
      body? check flags n (out ++ contents) (blocks ++ [record]) rest

def unpack? (data : Bytes) : Option Bytes := do
  let (front, rest) ← split? 6 data
  require (front == magic)
  let (flags, rest) ← split? 2 rest
  let rest ← crc32Of? flags rest
  require (flags.head? == some 0)
  let check ← (flags.drop 1).head?.bind Check.ofOctet?
  body? check flags data.length [] [] rest

def decompress (data : Bytes) : Except DecodeError Bytes :=
  DecodeError.lzma.unlessSome
    (if data.take magic.length == magic then unpack? data else decompress? data)

end Unmask.Lzma
