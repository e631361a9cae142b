import Unmask.Text.Utf8

/-!
# SHA-256 and keyed digests

A digest of 32 octets. Data is padded to blocks of 64 octets, and each block is mixed into a state
of eight words. From it come digests of data under a key, and keys derived from passwords by
repeating these.
-/
namespace Unmask.Sha256

/-- Words of the cube roots of the first primes. -/
def roundWords : Array UInt32 := #[
  0x428a2f98, 0x71374491, 0xb5c0fbcf, 0xe9b5dba5, 0x3956c25b, 0x59f111f1, 0x923f82a4, 0xab1c5ed5,
  0xd807aa98, 0x12835b01, 0x243185be, 0x550c7dc3, 0x72be5d74, 0x80deb1fe, 0x9bdc06a7, 0xc19bf174,
  0xe49b69c1, 0xefbe4786, 0x0fc19dc6, 0x240ca1cc, 0x2de92c6f, 0x4a7484aa, 0x5cb0a9dc, 0x76f988da,
  0x983e5152, 0xa831c66d, 0xb00327c8, 0xbf597fc7, 0xc6e00bf3, 0xd5a79147, 0x06ca6351, 0x14292967,
  0x27b70a85, 0x2e1b2138, 0x4d2c6dfc, 0x53380d13, 0x650a7354, 0x766a0abb, 0x81c2c92e, 0x92722c85,
  0xa2bfe8a1, 0xa81a664b, 0xc24b8b70, 0xc76c51a3, 0xd192e819, 0xd6990624, 0xf40e3585, 0x106aa070,
  0x19a4c116, 0x1e376c08, 0x2748774c, 0x34b0bcb5, 0x391c0cb3, 0x4ed8aa4a, 0x5b9cca4f, 0x682e6ff3,
  0x748f82ee, 0x78a5636f, 0x84c87814, 0x8cc70208, 0x90befffa, 0xa4506ceb, 0xbef9a3f7, 0xc67178f2]

structure State where
  a : UInt32
  b : UInt32
  c : UInt32
  d : UInt32
  e : UInt32
  f : UInt32
  g : UInt32
  h : UInt32
  deriving DecidableEq

/-- Words of the square roots of the first primes. -/
def State.initial : State :=
  ⟨0x6a09e667, 0xbb67ae85, 0x3c6ef372, 0xa54ff53a, 0x510e527f, 0x9b05688c, 0x1f83d9ab, 0x5be0cd19⟩

def State.add (s t : State) : State :=
  ⟨s.a + t.a, s.b + t.b, s.c + t.c, s.d + t.d, s.e + t.e, s.f + t.f, s.g + t.g, s.h + t.h⟩

def rotate (x : UInt32) (n : UInt32) : UInt32 := x >>> n ||| x <<< (32 - n)

/-- One round, with a word of the extended block. -/
def State.round (s : State) (k w : UInt32) : State :=
  let choice := (s.e &&& s.f) ^^^ (~~~s.e &&& s.g)
  let majority := (s.a &&& s.b) ^^^ (s.a &&& s.c) ^^^ (s.b &&& s.c)
  let t := s.h + (rotate s.e 6 ^^^ rotate s.e 11 ^^^ rotate s.e 25) + choice + k + w
  let u := (rotate s.a 2 ^^^ rotate s.a 13 ^^^ rotate s.a 22) + majority
  ⟨t + u, s.a, s.b, s.c, s.d + t, s.e, s.f, s.g⟩

/-- Extends a block by `n` words, each of which depends on the sixteen before it. -/
def extend : Nat → Array UInt32 → Array UInt32
  | 0, words => words
  | n + 1, words =>
    let i := words.size
    let x := words.getD (i - 15) 0
    let y := words.getD (i - 2) 0
    let w := words.getD (i - 16) 0 + (rotate x 7 ^^^ rotate x 18 ^^^ x >>> 3) +
      words.getD (i - 7) 0 + (rotate y 17 ^^^ rotate y 19 ^^^ y >>> 10)
    extend n (words.push w)

def rounds (words : Array UInt32) : Nat → State → State
  | 0, s => s
  | n + 1, s =>
    let i := 63 - n
    rounds words n (s.round (roundWords.getD i 0) (words.getD i 0))

/-- Mixes a block of sixteen words into a state. -/
def compress (s : State) (block : Array UInt32) : State := s.add (rounds (extend 48 block) 64 s)

/-- Groups octets into words, the highest octet first. -/
def words : Bytes → List UInt32
  | a :: b :: c :: d :: rest =>
    (((a.toUInt32 <<< 8 ||| b.toUInt32) <<< 8 ||| c.toUInt32) <<< 8 ||| d.toUInt32) :: words rest
  | _ => []

/-- The octets of a word, the highest first. -/
def octets (w : UInt32) : Bytes :=
  [(w >>> 24).toUInt8, (w >>> 16).toUInt8, (w >>> 8).toUInt8, w.toUInt8]

def State.words (s : State) : List UInt32 := [s.a, s.b, s.c, s.d, s.e, s.f, s.g, s.h]

def State.octets (s : State) : Bytes := s.words.flatMap Sha256.octets

def compressAll : Nat → State → List UInt32 → State
  | 0, s, _ => s
  | n + 1, s, ws =>
    if ws.isEmpty then s else compressAll n (compress s (ws.take 16).toArray) (ws.drop 16)

/-- What is appended to data of a length: a one bit, zeros, and the number of bits. -/
def padding (length : Nat) : Bytes :=
  0x80 :: List.replicate ((119 - length % 64) % 64) 0 ++
    (List.range 8).map fun i => UInt8.ofNat (length * 8 / Nat.pow 256 (7 - i))

/-- The digest of data behind blocks that are already mixed into a state. -/
def finish (s : State) (before : Nat) (data : Bytes) : State :=
  let ws := words (data ++ padding (before + data.length))
  compressAll ws.length s ws

def digest (data : Bytes) : Bytes := (finish State.initial 0 data).octets

end Unmask.Sha256

namespace Unmask.Hmac

/-- The states after the key has been mixed in, before the data and before the digest of it. -/
structure Key where
  inner : Sha256.State
  outer : Sha256.State

def masked (block : Bytes) (mask : UInt8) : Sha256.State :=
  Sha256.compress Sha256.State.initial (Sha256.words (block.map (· ^^^ mask))).toArray

/-- A long key is replaced by its digest; a short one goes on with zeros. -/
def Key.ofBytes (key : Bytes) : Key :=
  let key := if 64 < key.length then Sha256.digest key else key
  let block := key ++ List.replicate (64 - key.length) 0
  ⟨masked block 0x36, masked block 0x5C⟩

def digest (key : Bytes) (data : Bytes) : Bytes :=
  let k := Key.ofBytes key
  (Sha256.finish k.outer 64 (Sha256.finish k.inner 64 data).octets).octets

/-- The words that follow a digest in the last block. -/
def digestPadding : List UInt32 := [0x80000000, 0, 0, 0, 0, 0, 0, 768]

def again (k : Key) (s : Sha256.State) : Sha256.State :=
  let block (s : Sha256.State) : Array UInt32 := (s.words ++ digestPadding).toArray
  Sha256.compress k.outer (block (Sha256.compress k.inner (block s)))

def xor (s t : Sha256.State) : Sha256.State :=
  ⟨s.a ^^^ t.a, s.b ^^^ t.b, s.c ^^^ t.c, s.d ^^^ t.d, s.e ^^^ t.e, s.f ^^^ t.f, s.g ^^^ t.g,
    s.h ^^^ t.h⟩

/-- The sum of a digest and `n` further ones, each of the one before it. -/
def chain (k : Key) : Nat → Sha256.State → Sha256.State → Sha256.State
  | 0, _, sum => sum
  | n + 1, s, sum =>
    let s := again k s
    chain k n s (xor sum s)

/-- A key of 32 octets that is derived from a password and a salt in so many rounds. -/
def derive (password salt : Bytes) (rounds : Nat) : Bytes :=
  let k := Key.ofBytes password
  let inner := Sha256.finish k.inner 64 (salt ++ [0, 0, 0, 1])
  let first := Sha256.finish k.outer 64 inner.octets
  (chain k (rounds - 1) first first).octets

end Unmask.Hmac
