import Unmask.Codec.Zlib
import Unmask.Proofs.MarshalledPayloads
import Unmask.Proofs.RadixWriting

/-!
# Stored streams

Octets may stand in a stream as they are, cut into blocks with lengths of sixteen bits. Such a
stream is read as it was written, so that any octets are those of some stream.
-/
namespace Unmask.Deflate

/-- The number that bits are the digits of, the lowest one first. -/
def numberOf (bits : Bits) : Nat := bits.foldr (fun b n => 2 * n + b.toNat) 0

lemma number?_append (bits rest : Bits) :
    number? bits.length (bits ++ rest) = some (numberOf bits, rest) := by
  induction bits with
  | nil => rfl
  | cons b bits ih =>
    rw [List.length_cons, List.cons_append, number?, ih]
    rfl

lemma numberOf_append (bits more : Bits) :
    numberOf (bits ++ more) = numberOf bits + 2 ^ bits.length * numberOf more := by
  induction bits with
  | nil => simp [numberOf]
  | cons b bits ih =>
    have hcons (bits : Bits) : numberOf (b :: bits) = 2 * numberOf bits + b.toNat := rfl
    rw [List.cons_append, hcons, hcons, ih, List.length_cons]
    ring

lemma bitsOf_append (data more : Bytes) : bitsOf (data ++ more) = bitsOf data ++ bitsOf more :=
  List.flatMap_append

lemma length_bitsOf (data : Bytes) : (bitsOf data).length = 8 * data.length := by
  simp [bitsOf, List.length_flatMap, Nat.mul_comm]

lemma numberOf_octet (b : UInt8) : numberOf (bitsOf [b]) = b.toNat := by
  have hall : ∀ b, numberOf (bitsOf [b]) = b.toNat := Text.Utf8.forall_octet (by decide +kernel)
  exact hall b

/-- The bits of octets denote what the octets denote. -/
lemma numberOf_bitsOf (data : Bytes) : numberOf (bitsOf data) = Lzma.littleEndian data := by
  induction data with
  | nil => rfl
  | cons b rest ih =>
    have hvalue : Lzma.littleEndian (b :: rest) = Lzma.littleEndian rest * 256 + b.toNat := rfl
    rw [← List.singleton_append, bitsOf_append, numberOf_append, numberOf_octet, ih, length_bitsOf,
      List.singleton_append, hvalue]
    simp only [List.length_singleton]
    ring

lemma number?_bitsOf (data rest : Bytes) : number? (8 * data.length) (bitsOf (data ++ rest)) =
    some (Lzma.littleEndian data, bitsOf rest) := by
  rw [bitsOf_append, ← length_bitsOf, number?_append, numberOf_bitsOf]

lemma number?_octet (b : UInt8) (rest : Bytes) :
    number? 8 (bitsOf (b :: rest)) = some (b.toNat, bitsOf rest) := by
  have hread := number?_bitsOf [b] rest
  have hvalue : Lzma.littleEndian [b] = b.toNat := by simp [Lzma.littleEndian]
  rwa [hvalue] at hread

lemma number?_octetsOf {count n : Nat} (h : n < 256 ^ count) (rest : Bytes) :
    number? (8 * count) (bitsOf (Marshal.octetsOf count n ++ rest)) = some (n, bitsOf rest) := by
  have hread := number?_bitsOf (Marshal.octetsOf count n) rest
  rwa [Marshal.length_octetsOf, Marshal.littleEndian_octetsOf h] at hread

/-- Whole octets are left as they are. -/
lemma align_bitsOf (data : Bytes) : align (bitsOf data) = bitsOf data := by
  rw [align, length_bitsOf, Nat.mul_mod_right, List.drop_zero]

/-- A block that holds octets as they are. -/
def storedBlock (final : Bool) (data : Bytes) : Bytes :=
  UInt8.ofNat final.toNat ::
    (Marshal.octetsOf 2 data.length ++ Marshal.octetsOf 2 (0xFFFF - data.length) ++ data)

/-- Blocks that hold octets as they are, up to the last one. -/
def storedBlocks (chunks : List Bytes) (last : Bytes) : Bytes :=
  chunks.flatMap (storedBlock false) ++ storedBlock true last

lemma stored?_bitsOf (out : Array UInt8) (data rest : Bytes) :
    stored? data.length out (bitsOf (data ++ rest)) = some (out ++ data, bitsOf rest) := by
  induction data generalizing out with
  | nil => simp [stored?]
  | cons b data ih =>
    rw [List.length_cons, List.cons_append, stored?, number?_octet]
    simp [ih]

lemma storedBlock?_bitsOf (out : Array UInt8) {data : Bytes} (h : data.length < 2 ^ 16)
    (rest : Bytes) :
    storedBlock? out (bitsOf (Marshal.octetsOf 2 data.length ++
        Marshal.octetsOf 2 (0xFFFF - data.length) ++ data ++ rest)) =
      some (out ++ data, bitsOf rest) := by
  have hsum : data.length + (0xFFFF - data.length) = 0xFFFF := by omega
  have hlength : data.length < 256 ^ 2 := h
  have hinverse : 0xFFFF - data.length < 256 ^ 2 := by omega
  rw [storedBlock?, align_bitsOf, List.append_assoc, List.append_assoc]
  simp only [number?_octetsOf hlength, number?_octetsOf hinverse, hsum, beq_self_eq_true, if_true,
    Option.bind_eq_bind, Option.bind_some, stored?_bitsOf]

/-- The rest of the octet that a block begins in is left out. -/
lemma storedBlock?_skip (out : Array UInt8) (data : Bytes) :
    storedBlock? out (List.replicate 5 false ++ bitsOf data) = storedBlock? out (bitsOf data) := by
  have hrest : (5 + 8 * data.length) % 8 = (List.replicate 5 false).length := by
    rw [Nat.add_mul_mod_self_left]
    rfl
  have halign : align (List.replicate 5 false ++ bitsOf data) = bitsOf data := by
    rw [align, List.length_append, length_bitsOf, List.length_replicate, hrest, List.drop_left]
  rw [storedBlock?, storedBlock?, halign, align_bitsOf]

lemma blocks?_stored (n : Nat) (out : Array UInt8) (final : Bool) (bits : Bits) :
    blocks? (n + 1) out (final :: false :: false :: bits) =
      (storedBlock? out bits).bind fun (out, bits) =>
        if final then some (out, bits) else blocks? n out bits := by
  cases final <;> simp [blocks?, number?, block?]

/-- A block is read as it was written, and only the last one ends the stream. -/
lemma blocks?_storedBlock (n : Nat) (out : Array UInt8) (final : Bool) {data : Bytes}
    (h : data.length < 2 ^ 16) (rest : Bytes) :
    blocks? (n + 1) out (bitsOf (storedBlock final data ++ rest)) =
      if final then some (out ++ data, bitsOf rest) else blocks? n (out ++ data) (bitsOf rest) := by
  have hheader (behind : Bytes) : bitsOf (UInt8.ofNat final.toNat :: behind) =
      final :: false :: false :: (List.replicate 5 false ++ bitsOf behind) := by
    cases final <;> rfl
  rw [storedBlock, List.cons_append, hheader, blocks?_stored, storedBlock?_skip,
    storedBlock?_bitsOf out h, Option.bind_some]

lemma blocks?_storedBlocks {n : Nat} (out : Array UInt8) {chunks : List Bytes} {last : Bytes}
    (hn : chunks.length < n) (hchunks : ∀ c ∈ chunks, c.length < 2 ^ 16)
    (hlast : last.length < 2 ^ 16) (rest : Bytes) :
    blocks? n out (bitsOf (storedBlocks chunks last ++ rest)) =
      some (out ++ (chunks.flatten ++ last), bitsOf rest) := by
  obtain ⟨n, rfl⟩ := Nat.exists_eq_add_one_of_ne_zero (Nat.ne_zero_of_lt hn)
  induction chunks generalizing out n with
  | nil =>
    rw [storedBlocks, List.flatMap_nil, List.nil_append, blocks?_storedBlock n out true hlast]
    simp
  | cons c chunks ih =>
    obtain ⟨hc, hchunks⟩ := List.forall_mem_cons.mp hchunks
    obtain ⟨n, rfl⟩ : ∃ k, n = k + 1 := ⟨n - 1, by rw [List.length_cons] at hn; omega⟩
    have hmore := ih (out ++ c) hchunks n (by rw [List.length_cons] at hn; omega)
    rw [storedBlocks, List.flatMap_cons, List.append_assoc, List.append_assoc,
      blocks?_storedBlock (n + 1) out false hc, ← List.append_assoc, ← storedBlocks,
      if_neg (by decide), hmore, List.flatten_cons, List.append_assoc]
    simp [← Array.toList_inj]

lemma length_storedBlock (final : Bool) (data : Bytes) :
    (storedBlock final data).length = data.length + 5 := by
  simp only [storedBlock, List.length_cons, List.length_append, Marshal.length_octetsOf]
  omega

lemma length_storedBlocks (chunks : List Bytes) (last : Bytes) :
    chunks.length < (storedBlocks chunks last).length := by
  induction chunks with
  | nil => simp [storedBlocks, length_storedBlock]
  | cons c chunks ih =>
    rw [storedBlocks] at ih ⊢
    simp only [List.flatMap_cons, List.length_append, length_storedBlock, List.length_cons] at ih ⊢
    omega

/-- Stored blocks are read as they were written. -/
theorem inflate?_storedBlocks {chunks : List Bytes} {last : Bytes}
    (hchunks : ∀ c ∈ chunks, c.length < 2 ^ 16) (hlast : last.length < 2 ^ 16) (rest : Bytes) :
    inflate? (bitsOf (storedBlocks chunks last ++ rest)) =
      some (chunks.flatten ++ last, bitsOf rest) := by
  have hlength := length_storedBlocks chunks last
  rw [inflate?, blocks?_storedBlocks #[] (by
    rw [length_bitsOf, List.length_append]
    omega) hchunks hlast]
  simp

end Unmask.Deflate

namespace Unmask.Zlib

lemma adler32_lt (data : Bytes) : Checksum.adler32 data < 2 ^ 32 := by
  unfold Checksum.adler32
  dsimp only
  generalize hfold : data.foldl _ (1, 0) = sums
  have hsums : sums.1 < 65521 ∧ sums.2 < 65521 := by
    rw [← hfold]
    exact List.foldlRecOn (motive := fun sums : Nat × Nat => sums.1 < 65521 ∧ sums.2 < 65521)
      data _ (by decide) fun _ _ _ _ => ⟨Nat.mod_lt _ (by decide), Nat.mod_lt _ (by decide)⟩
  omega

/-- A stream that holds octets as they are. -/
def store (chunks : List Bytes) (last : Bytes) : Bytes :=
  0x78 :: 0x01 :: (Deflate.storedBlocks chunks last ++
    Radix.octets 4 (Checksum.adler32 (chunks.flatten ++ last)))

lemma bigEndian?_octets {n : Nat} (h : n < 2 ^ 32) :
    bigEndian? (Deflate.bitsOf (Radix.octets 4 n)) = some n := by
  have hoctets : Radix.octets 4 n = [.ofNat (n / 256 ^ 3), .ofNat (n / 256 ^ 2),
      .ofNat (n / 256 ^ 1), .ofNat (n / 256 ^ 0)] := rfl
  rw [hoctets, bigEndian?]
  simp only [Deflate.number?_octet, Option.bind_eq_bind, Option.bind_some, UInt8.toNat_ofNat']
  refine congrArg some ?_
  omega

lemma decompress?_cons (method flags : UInt8) (rest : Bytes) :
    decompress? (method :: flags :: rest) =
      if isHeader method flags then
        (Deflate.inflate? (Deflate.bitsOf rest)).bind fun (out, bits) =>
          (bigEndian? (Deflate.align bits)).bind fun checksum =>
            if checksum == Checksum.adler32 out then some out else none
      else none := rfl

/-- A stream with its header and checksum is read as its blocks are. -/
lemma decompress_of_inflate? {method flags : UInt8} {rest out : Bytes} {bits : Deflate.Bits}
    (hheader : isHeader method flags = true)
    (hblocks : Deflate.inflate? (Deflate.bitsOf rest) = some (out, bits))
    (hchecksum : bigEndian? (Deflate.align bits) = some (Checksum.adler32 out)) :
    decompress (method :: flags :: rest) = .ok out := by
  have hread : decompress? (method :: flags :: rest) = some out := by
    rw [decompress?_cons, if_pos hheader, hblocks, Option.bind_some]
    dsimp only
    rw [hchecksum, Option.bind_some, if_pos (beq_self_eq_true _)]
  exact congrArg DecodeError.zlib.unlessSome hread

/-- A stored stream is read as it was written. -/
theorem decompress_store {chunks : List Bytes} {last : Bytes}
    (hchunks : ∀ c ∈ chunks, c.length < 2 ^ 16) (hlast : last.length < 2 ^ 16) :
    decompress (store chunks last) = .ok (chunks.flatten ++ last) := by
  refine decompress_of_inflate? (by decide) (Deflate.inflate?_storedBlocks hchunks hlast _) ?_
  rw [Deflate.align_bitsOf, bigEndian?_octets (adler32_lt _)]

/-- Any octets are those of some stream. -/
theorem exists_decompress (data : Bytes) : ∃ z, decompress z = .ok data := by
  have hchunks : ∀ c ∈ data.map ([·]), c.length < 2 ^ 16 := by simp
  refine ⟨store (data.map ([·])) [], ?_⟩
  rw [decompress_store hchunks (by decide), List.append_nil, ← List.flatMap_def,
    List.flatMap_singleton']

end Unmask.Zlib
