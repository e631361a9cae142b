import Unmask.Text.Utf8

/-!
# Range coding and compressed streams

A bit is decoded with the probability that its context holds; the context then moves towards the bit
that was seen. Contexts are numbered, and all probabilities stand in one table.

A stream is a row of literals and of copies from earlier output, written with range coding. The last
four distances can be used again, and the kinds of the last items choose contexts.
-/
namespace Unmask.Lzma

structure RangeDecoder where
  range : UInt32
  code : UInt32
  input : Bytes
  /-- Of 2048, how often the bit of each context is expected to be zero. -/
  expected : Array UInt32

/-- A computation that reads bits and ends when the input does. -/
abbrev Decoding := StateT RangeDecoder Option

namespace RangeDecoder

def word (a b c d : UInt8) : UInt32 :=
  ((a.toUInt32 <<< 8 ||| b.toUInt32) <<< 8 ||| c.toUInt32) <<< 8 ||| d.toUInt32

/-- Starts behind one octet that does not count and four octets of code. -/
def start? (expected : Array UInt32) : Bytes → Option RangeDecoder
  | _ :: a :: b :: c :: d :: rest => some ⟨0xFFFFFFFF, word a b c d, rest, expected⟩
  | _ => none

def isFinished (d : RangeDecoder) : Bool := d.code == 0 && d.input.isEmpty

/-- Takes in an octet when the range has become small. -/
def normalize (d : RangeDecoder) : Option RangeDecoder :=
  if d.range < 0x1000000 then
    match d.input with
    | [] => none
    | b :: rest =>
      some { d with range := d.range <<< 8, code := d.code <<< 8 ||| b.toUInt32, input := rest }
  else some d

/-- Decodes a bit in a context. -/
def bitStep (context : Nat) (d : RangeDecoder) : Option (Nat × RangeDecoder) :=
  let p := d.expected.getD context 1024
  let bound := (d.range >>> 11) * p
  if d.code < bound then
    let table := d.expected.setIfInBounds context (p + ((2048 - p) >>> 5))
    (normalize ⟨bound, d.code, d.input, table⟩).map fun d => (0, d)
  else
    let table := d.expected.setIfInBounds context (p - (p >>> 5))
    (normalize ⟨d.range - bound, d.code - bound, d.input, table⟩).map fun d => (1, d)

/-- Decodes a bit that is as often zero as one. -/
def evenBitStep (d : RangeDecoder) : Option (Nat × RangeDecoder) :=
  let half := d.range >>> 1
  if d.code < half then (normalize { d with range := half }).map fun d => (0, d)
  else (normalize { d with range := half, code := d.code - half }).map fun d => (1, d)

end RangeDecoder

def bit (context : Nat) : Decoding Nat := RangeDecoder.bitStep context

/-- Decodes `n` further bits, the highest first, each in the context of those before it; `node` has
a one in front of the bits so far. -/
def treeFrom (base : Nat) : Nat → Nat → Decoding Nat
  | 0, node => return node
  | n + 1, node => do
    let b ← bit (base + node)
    treeFrom base n (2 * node + b)

def tree (base n : Nat) : Decoding Nat := do return (← treeFrom base n 1) - Nat.pow 2 n

/-- Decodes a number of `n` bits, the lowest first. -/
def reverseTreeFrom (base : Nat) : Nat → Nat → Decoding Nat
  | 0, _ => return 0
  | n + 1, node => do
    let b ← bit (base + node)
    return b + 2 * (← reverseTreeFrom base n (2 * node + b))

def reverseTree (base n : Nat) : Decoding Nat := reverseTreeFrom base n 1

/-- Decodes `n` bits without contexts behind those so far. -/
def evenBits : Nat → Nat → Decoding Nat
  | 0, value => return value
  | n + 1, value => do
    let b ← (RangeDecoder.evenBitStep : Decoding Nat)
    evenBits n (2 * value + b)

/-- Parameters of a stream: how many bits of the last octet and of the place choose contexts. -/
structure Properties where
  literalContext : Nat
  literalPlace : Nat
  place : Nat

/-- The parameters that an octet stands for. -/
def Properties.ofOctet? (b : UInt8) : Option Properties :=
  let n := b.toNat
  if 225 ≤ n then none else some ⟨n % 9, n / 9 % 5, n / 45⟩

/-- What a decoder knows between two items. -/
structure Progress where
  /-- The output that can be copied from. -/
  window : Array UInt8
  /-- A number below 12 for the kinds of the last items. -/
  state : Nat
  rep₀ : Nat
  rep₁ : Nat
  rep₂ : Nat
  rep₃ : Nat

def Progress.start (window : Array UInt8) : Progress := ⟨window, 0, 0, 0, 0, 0⟩

namespace Context

def isCopy (state place : Nat) : Nat := state * 16 + place
def isRep (state : Nat) : Nat := 192 + state
def isRepOther (state : Nat) : Nat := 204 + state
def isRepLater (state : Nat) : Nat := 216 + state
def isRepLast (state : Nat) : Nat := 228 + state
def isRepLong (state place : Nat) : Nat := 240 + state * 16 + place
def distanceSlot (lengthClass : Nat) : Nat := 432 + lengthClass * 64
def distanceBits (offset : Nat) : Nat := 688 + offset
def distanceAlign : Nat := 803
def length : Nat := 819
def repLength : Nat := 1333
def literal (n : Nat) : Nat := 1847 + 0x300 * n

def count (p : Properties) : Nat := literal (Nat.pow 2 (p.literalContext + p.literalPlace))

def fresh (p : Properties) : Array UInt32 := Array.replicate (count p) 1024

end Context

/-- The octet so far back; `0` in front of the output. -/
def Progress.back (s : Progress) (distance : Nat) : UInt8 :=
  if s.window.size < distance then 0 else s.window.getD (s.window.size - distance) 0

/-- Decodes the rest of a literal beside the octet that a copy would have given, as long as they
agree. -/
def matchedLiteral (base : Nat) : Nat → Nat → Nat → Decoding Nat
  | 0, _, node => return node
  | n + 1, like, node => do
    let expected := like / Nat.pow 2 n % 2
    let b ← bit (base + (1 + expected) * 256 + node)
    if b == expected then matchedLiteral base n like (2 * node + b)
    else treeFrom base n (2 * node + b)

def literal (p : Properties) (s : Progress) : Decoding UInt8 := do
  let last := (s.back 1).toNat
  let context := s.window.size % Nat.pow 2 p.literalPlace * Nat.pow 2 p.literalContext +
    last / Nat.pow 2 (8 - p.literalContext)
  let base := Context.literal context
  let node ←
    if 7 ≤ s.state then
      if s.window.size < s.rep₀ + 1 then failure
      else matchedLiteral base 8 (s.back (s.rep₀ + 1)).toNat 1
    else treeFrom base 8 1
  return UInt8.ofNat (node - 256)

/-- Decodes the length of a copy, less two. -/
def copyLength (base place : Nat) : Decoding Nat := do
  if (← bit base) == 0 then tree (base + 2 + place * 8) 3
  else if (← bit (base + 1)) == 0 then return 8 + (← tree (base + 130 + place * 8) 3)
  else return 16 + (← tree (base + 258) 8)

/-- Decodes the distance of a copy, less one. -/
def copyDistance (length : Nat) : Decoding Nat := do
  let slot ← tree (Context.distanceSlot (min length 3)) 6
  if slot < 4 then return slot
  else
    let n := slot / 2 - 1
    let high := (2 + slot % 2) * Nat.pow 2 n
    if slot < 14 then return high + (← reverseTree (Context.distanceBits (high - slot)) n)
    else
      let middle ← evenBits (n - 4) 0
      return high + middle * 16 + (← reverseTree Context.distanceAlign 4)

def afterLiteral (state : Nat) : Nat :=
  if state < 4 then 0 else if state < 10 then state - 3 else state - 6

/-- The state after an item that has one number behind literals and another one behind copies. -/
def afterItem (state behindLiteral behindCopy : Nat) : Nat :=
  if state < 7 then behindLiteral else behindCopy

/-- Repeats octets from so far back. -/
def copyBack (distance : Nat) : Nat → Array UInt8 → Array UInt8
  | 0, out => out
  | n + 1, out => copyBack distance n (out.push (out.getD (out.size - distance) 0))

def copy (maxDistance length : Nat) (s : Progress) : Decoding Progress :=
  let distance := s.rep₀ + 1
  if maxDistance < distance || s.window.size < distance then failure
  else return { s with window := copyBack distance length s.window }

/-- Chooses one of the earlier distances and moves it to the front. -/
def chooseRep (s : Progress) : Decoding Progress := do
  if (← bit (Context.isRepLater s.state)) == 0 then
    return { s with rep₀ := s.rep₁, rep₁ := s.rep₀ }
  else if (← bit (Context.isRepLast s.state)) == 0 then
    return { s with rep₀ := s.rep₂, rep₁ := s.rep₀, rep₂ := s.rep₁ }
  else return { s with rep₀ := s.rep₃, rep₁ := s.rep₀, rep₂ := s.rep₁, rep₃ := s.rep₂ }

/-- Whether a copy from an earlier distance is one octet from the last distance. -/
def isShort (place : Nat) (s : Progress) (other : Nat) : Decoding Bool :=
  if other == 0 then do return (← bit (Context.isRepLong s.state place)) == 0 else pure false

def repItem (maxDistance place : Nat) (s : Progress) : Decoding Progress := do
  let other ← bit (Context.isRepOther s.state)
  if ← isShort place s other then
    copy maxDistance 1 { s with state := afterItem s.state 9 11 }
  else
    let s ← if other == 0 then pure s else chooseRep s
    let length ← copyLength Context.repLength place
    copy maxDistance (length + 2) { s with state := afterItem s.state 8 11 }

/-- Decodes a copy from a new distance; the greatest one marks the end. -/
def copyItem (maxDistance place : Nat) (s : Progress) : Decoding (Progress × Bool) := do
  let length ← copyLength Context.length place
  let distance ← copyDistance length
  let s := { s with
    state := afterItem s.state 7 10
    rep₀ := distance, rep₁ := s.rep₀, rep₂ := s.rep₁, rep₃ := s.rep₂ }
  if distance == 0xFFFFFFFF then return (s, true)
  else return (← copy maxDistance (length + 2) s, false)

/-- Decodes an item; tells whether it was the mark of the end. -/
def item (p : Properties) (maxDistance : Nat) (s : Progress) : Decoding (Progress × Bool) := do
  let place := s.window.size % Nat.pow 2 p.place
  if (← bit (Context.isCopy s.state place)) == 0 then
    let b ← literal p s
    return ({ s with window := s.window.push b, state := afterLiteral s.state }, false)
  else if (← bit (Context.isRep s.state)) == 1 then
    return (← repItem maxDistance place s, false)
  else copyItem maxDistance place s

/-- Whether the output has its size or, if none is given, the input has ended. -/
def isComplete (size : Option Nat) (s : Progress) (d : RangeDecoder) : Bool :=
  match size with
  | some total => decide (total ≤ s.window.size)
  | none => d.isFinished

/-- Decodes at most `n` items, until the output has a size or, if none is given, up to the end. -/
def items (p : Properties) (maxDistance : Nat) (size : Option Nat) :
    Nat → Progress → Decoding Progress
  | 0, _ => failure
  | n + 1, s => do
    let before ← get
    if isComplete size s before then return s
    else
      let (s, ended) ← item p maxDistance s
      let after ← get
      if !ended then items p maxDistance size n s
      else if after.isFinished then return s
      else failure

/-- A number of items that octets of input never exceed. -/
def itemLimit (input : Bytes) : Nat := 512 * (input.length + 8)

/-- Decodes items until the output has a size, and checks that it has just that. -/
def run? (p : Properties) (maxDistance : Nat) (size : Option Nat) (input : Bytes)
    (expected : Array UInt32) (s : Progress) : Option (Progress × RangeDecoder) := do
  let decoder ← RangeDecoder.start? expected input
  let (s, decoder) ← (items p maxDistance size (itemLimit input) s).run decoder
  match size with
  | some total => if s.window.size == total then return (s, decoder) else none
  | none => return (s, decoder)

def littleEndian (bytes : Bytes) : Nat := bytes.foldr (fun b n => n * 256 + b.toNat) 0

/-- Decodes a stream behind a header with its parameters, the greatest distance and the size. -/
def decompress? (data : Bytes) : Option Bytes :=
  match data with
  | [] => none
  | first :: rest =>
    if rest.length < 12 then none
    else do
      let p ← Properties.ofOctet? first
      let maxDistance := max 0x1000 (littleEndian (rest.take 4))
      let size := littleEndian ((rest.drop 4).take 8)
      let (s, _) ← run? p maxDistance (if size == Nat.pow 2 64 - 1 then none else some size)
        (rest.drop 12) (Context.fresh p) (Progress.start #[])
      return s.window.toList

end Unmask.Lzma
