import Mathlib.Algebra.Order.Group.Nat
import Mathlib.Tactic.Lemma
import Mathlib.Tactic.Ring
import Unmask.Codec.Radix
import Unmask.Proofs.TextOctets

/-!
# Octets written in symbols

Octets are cut into groups, the bits of a group are taken off in digits from the front, zeros fill
up the last digit, and padding fills up the group. What is written so is read as it was.
-/
namespace Unmask.Radix

/-- The number that octets are the digits of, the highest one first. -/
def number : Bytes → Nat
  | [] => 0
  | b :: rest => b.toNat * 256 ^ rest.length + number rest

/-- The lowest `count` digits of a number, the highest one first. -/
def digits (base : Nat) : Nat → Nat → List Nat
  | 0, _ => []
  | count + 1, n => n / base ^ count % base :: digits base count n

/-- An alphabet with a symbol for each digit, and groups of whole octets. -/
structure Writing extends Alphabet where
  symbol : Nat → UInt8
  bits_pos : 0 < bits
  bits_le : bits ≤ 8
  groupSize_pos : 0 < groupSize
  whole : 8 ∣ bits * groupSize
  digit_symbol : ∀ d < 2 ^ bits, digit? (symbol d) = some d
  digit_padding : digit? padding = none

namespace Writing

variable (w : Writing)

/-- How many octets make a group. -/
def width : Nat := w.bits * w.groupSize / 8

/-- How many symbols so many octets take. -/
def symbolCount (octets : Nat) : Nat := (8 * octets + w.bits - 1) / w.bits

/-- How many zeros fill up the last symbol. -/
def fill (octets : Nat) : Nat := w.symbolCount octets * w.bits - 8 * octets

/-- The symbols of a group, with its padding. -/
def encodeGroup (group : Bytes) : Bytes :=
  (digits (2 ^ w.bits) (w.symbolCount group.length)
      (number group * 2 ^ w.fill group.length)).map w.symbol ++
    List.replicate (w.groupSize - w.symbolCount group.length) padding

/-- The symbols of at most `n` groups. -/
def encodeGroups : Nat → Bytes → Bytes
  | _, [] => []
  | 0, _ :: _ => []
  | n + 1, b :: rest =>
    encodeGroup w ((b :: rest).take w.width) ++ encodeGroups n ((b :: rest).drop w.width)

/-- Octets in symbols. -/
def encode (data : Bytes) : Bytes := w.encodeGroups data.length data

end Writing

lemma length_digits (base count n : Nat) : (digits base count n).length = count := by
  induction count with
  | zero => rfl
  | succ count ih => rw [digits, List.length_cons, ih]

lemma digits_lt {base count n : Nat} (hbase : 0 < base) : ∀ d ∈ digits base count n, d < base := by
  induction count with
  | zero => simp [digits]
  | succ count ih => simpa [digits, Nat.mod_lt _ hbase] using ih

lemma number_lt (group : Bytes) : number group < 256 ^ group.length := by
  induction group with
  | nil => decide
  | cons b rest ih =>
    have hb : b.toNat + 1 ≤ 256 := b.toNat_lt
    calc number (b :: rest)
      _ < b.toNat * 256 ^ rest.length + 256 ^ rest.length := Nat.add_lt_add_left ih _
      _ = (b.toNat + 1) * 256 ^ rest.length := by ring
      _ ≤ 256 * 256 ^ rest.length := Nat.mul_le_mul_right _ hb
      _ = 256 ^ (b :: rest).length := by rw [List.length_cons, Nat.pow_succ']

/-- Only the lowest octets of a number matter. -/
lemma octets_add (count n high : Nat) : octets count (high * 256 ^ count + n) = octets count n := by
  induction count generalizing high with
  | zero => rfl
  | succ count ih =>
    have hhigh : high * 256 ^ (count + 1) + n = high * 256 * 256 ^ count + n := by ring
    have hquotient : (high * 256 * 256 ^ count + n) / 256 ^ count =
        n / 256 ^ count + high * 256 := by
      rw [Nat.add_comm, Nat.add_mul_div_right _ _ (Nat.pow_pos (by decide))]
    rw [octets, octets, hhigh, ih, Nat.pow_eq, hquotient]
    congr 1
    rw [← UInt8.toNat_inj, UInt8.toNat_ofNat', UInt8.toNat_ofNat']
    omega

lemma octets_number (group : Bytes) : octets group.length (number group) = group := by
  induction group with
  | nil => rfl
  | cons b rest ih =>
    have hquotient : (b.toNat * 256 ^ rest.length + number rest) / 256 ^ rest.length = b.toNat := by
      rw [Nat.add_comm, Nat.add_mul_div_right _ _ (Nat.pow_pos (by decide)),
        Nat.div_eq_of_lt (number_lt rest), Nat.zero_add]
    rw [List.length_cons, octets, number, Nat.pow_eq, hquotient, octets_add, ih, UInt8.ofNat_toNat]

/-- The first digits are those of the number without the last ones. -/
lemma take_digits (base count more n : Nat) :
    (digits base (count + more) n).take count = digits base count (n / base ^ more) := by
  induction count with
  | zero => rfl
  | succ count ih =>
    rw [Nat.add_right_comm, digits, List.take_succ_cons, ih, digits, Nat.div_div_eq_div_mul,
      ← Nat.pow_add, Nat.add_comm more]

lemma take_octets (count more n : Nat) :
    (octets (count + more) n).take count = octets count (n / 256 ^ more) := by
  induction count with
  | zero => rfl
  | succ count ih =>
    rw [Nat.add_right_comm, octets, List.take_succ_cons, ih, octets, Nat.pow_eq, Nat.pow_eq,
      Nat.div_div_eq_div_mul, ← Nat.pow_add, Nat.add_comm more]

lemma length_octets (count n : Nat) : (octets count n).length = count := by
  induction count with
  | zero => rfl
  | succ count ih => rw [octets, List.length_cons, ih]

/-- Zeros behind octets move them up. -/
lemma number_append_zeros (group : Bytes) (count : Nat) :
    number (group ++ List.replicate count 0) = number group * 256 ^ count := by
  induction group with
  | nil =>
    induction count with
    | zero => rfl
    | succ count ih =>
      have hzero : number (0 :: List.replicate count 0) = number (List.replicate count 0) := by
        rw [number, UInt8.toNat_zero, Nat.zero_mul, Nat.zero_add]
      rw [List.nil_append] at ih ⊢
      rw [List.replicate_succ, hzero, ih, number, Nat.zero_mul, Nat.zero_mul]
  | cons b rest ih =>
    rw [List.cons_append, number, number, ih, List.length_append, List.length_replicate]
    ring

namespace Writing

variable (w : Writing)

/-- The symbols of digits denote the number, whatever was read before. -/
lemma foldl_digits (count n high : Nat) :
    ((digits (2 ^ w.bits) count n).map w.symbol).foldl
        (fun n b => n.bind fun n => (w.digit? b).map (n * Nat.pow 2 w.bits + ·)) (some high) =
      some (high * (2 ^ w.bits) ^ count + n % (2 ^ w.bits) ^ count) := by
  induction count generalizing high with
  | zero => simp [digits, Nat.mod_one]
  | succ count ih =>
    have hdigit := w.digit_symbol (n / (2 ^ w.bits) ^ count % 2 ^ w.bits)
      (Nat.mod_lt _ (Nat.two_pow_pos _))
    rw [digits, List.map_cons, List.foldl_cons, Option.bind_some, hdigit, Option.map_some, ih,
      Nat.pow_eq, Nat.mod_pow_succ]
    congr 1
    ring

lemma number?_digits (count n : Nat) (h : n < (2 ^ w.bits) ^ count) :
    number? w.toAlphabet ((digits (2 ^ w.bits) count n).map w.symbol) = some n := by
  rw [number?, foldl_digits, Nat.zero_mul, Nat.zero_add, Nat.mod_eq_of_lt h]

lemma ne_padding {count n : Nat} : ∀ s ∈ (digits (2 ^ w.bits) count n).map w.symbol,
    s ≠ padding := by
  rintro s hs rfl
  obtain ⟨d, hd, hsymbol⟩ := List.mem_map.mp hs
  have hdigit := w.digit_symbol d (digits_lt (Nat.two_pow_pos _) d hd)
  rw [hsymbol, w.digit_padding] at hdigit
  contradiction

/-- The symbols of octets have room for their bits, and less than one symbol is left over. -/
lemma symbolCount_bounds (octets : Nat) : 8 * octets ≤ w.symbolCount octets * w.bits ∧
    w.symbolCount octets * w.bits < 8 * octets + w.bits := by
  have hbits := w.bits_pos
  have hdiv := Nat.div_add_mod (8 * octets + w.bits - 1) w.bits
  have hmod := Nat.mod_lt (8 * octets + w.bits - 1) hbits
  rw [← symbolCount, Nat.mul_comm] at hdiv
  omega

lemma symbolCount_le {octets : Nat} (h : octets ≤ w.width) :
    w.symbolCount octets ≤ w.groupSize := by
  obtain ⟨k, hk⟩ := w.whole
  have hwidth : 8 * octets ≤ w.groupSize * w.bits := by
    have hle : octets ≤ w.bits * w.groupSize / 8 := h
    rw [Nat.mul_comm w.groupSize]
    omega
  have hlt := lt_of_lt_of_le (w.symbolCount_bounds octets).2 (Nat.add_le_add_right hwidth w.bits)
  rw [← Nat.succ_mul] at hlt
  exact Nat.le_of_lt_succ (Nat.lt_of_mul_lt_mul_right hlt)

lemma width_pos : 0 < w.width := by
  obtain ⟨k, hk⟩ := w.whole
  have hpos := Nat.mul_pos w.bits_pos w.groupSize_pos
  rw [width]
  omega

lemma length_encodeGroup {group : Bytes} (h : group.length ≤ w.width) :
    (w.encodeGroup group).length = w.groupSize := by
  have hle := w.symbolCount_le h
  rw [encodeGroup, List.length_append, List.length_map, length_digits, List.length_replicate]
  omega

/-- Padding is taken off the end, and symbols are not. -/
lemma unpadded {symbols : Bytes} (h : ∀ s ∈ symbols, s ≠ padding) (count : Nat) :
    ((symbols ++ List.replicate count padding).reverse.dropWhile (· == padding)).reverse =
      symbols := by
  have hpadding : ∀ b ∈ List.replicate count padding, (b == padding) = true := by
    intro b hb
    rw [List.eq_of_mem_replicate hb]
    rfl
  have hsymbols : symbols.reverse.dropWhile (· == padding) = symbols.reverse := by
    cases hreverse : symbols.reverse with
    | nil => rfl
    | cons s rest =>
      have hs : s ∈ symbols := List.mem_reverse.mp (hreverse ▸ List.mem_cons_self)
      rw [List.dropWhile_cons_of_neg (by simpa using h s hs)]
  rw [List.reverse_append, List.reverse_replicate, List.dropWhile_append_of_pos hpadding, hsymbols,
    List.reverse_reverse]

/-- A group is read as it was written. -/
lemma decodeGroup?_encodeGroup {group : Bytes} (hne : group ≠ []) :
    decodeGroup? w.toAlphabet (w.encodeGroup group) = some group := by
  obtain ⟨hroom, hleft⟩ := w.symbolCount_bounds group.length
  have hbits := w.bits_le
  have hlength : 0 < group.length := List.length_pos_iff.mpr hne
  have hfill : w.symbolCount group.length * w.bits = 8 * group.length + w.fill group.length :=
    (Nat.add_sub_cancel' hroom).symm
  have hlt : number group * 2 ^ w.fill group.length <
      (2 ^ w.bits) ^ w.symbolCount group.length := by
    have hpow : (256 : Nat) ^ group.length = 2 ^ (8 * group.length) := by
      rw [Nat.pow_mul]
    rw [← Nat.pow_mul, Nat.mul_comm w.bits, hfill, Nat.pow_add, ← hpow]
    exact Nat.mul_lt_mul_of_pos_right (number_lt group) (Nat.two_pow_pos _)
  have hcount : w.symbolCount group.length * w.bits / 8 = group.length := by omega
  have hrest : w.symbolCount group.length * w.bits % 8 = w.fill group.length := by omega
  have hzeros : number group * 2 ^ w.fill group.length % 2 ^ w.fill group.length = 0 :=
    Nat.mul_mod_left _ _
  have hnumber : number group * 2 ^ w.fill group.length / 2 ^ w.fill group.length = number group :=
    Nat.mul_div_cancel _ (Nat.two_pow_pos _)
  have hne : (group.length == 0) = false := beq_false_of_ne hlength.ne'
  have hshort : decide (w.bits ≤ w.fill group.length) = false := decide_eq_false (by omega)
  rw [decodeGroup?, encodeGroup, unpadded w.ne_padding]
  simp only [w.number?_digits _ _ hlt, List.length_map, length_digits, hcount, hrest, Nat.pow_eq,
    hzeros, hnumber, hne, hshort, octets_number, Option.bind_some]
  rfl

/-- What is written in symbols is read as it was, with room for as many groups as there are. -/
lemma decodeGroups?_encodeGroups (m n : Nat) (data : Bytes) (hn : data.length ≤ n)
    (hm : (w.encodeGroups n data).length ≤ m) :
    decodeGroups? w.toAlphabet m (w.encodeGroups n data) = some data := by
  have hwidth := w.width_pos
  have hsize := w.groupSize_pos
  induction n generalizing m data with
  | zero =>
    rw [List.eq_nil_of_length_eq_zero (Nat.le_zero.mp hn), encodeGroups]
    cases m <;> rfl
  | succ n ih =>
    cases data with
    | nil => cases m <;> rfl
    | cons b rest =>
      rw [encodeGroups] at hm ⊢
      have hgroup : (w.encodeGroup ((b :: rest).take w.width)).length = w.groupSize :=
        w.length_encodeGroup (by simp)
      have hne : (b :: rest).take w.width ≠ [] := by
        intro hnil
        have hzero := congrArg List.length hnil
        simp at hzero
        omega
      have hread := w.decodeGroup?_encodeGroup hne
      have hdrop : ((b :: rest).drop w.width).length ≤ n := by
        rw [List.length_drop]
        omega
      generalize w.encodeGroup ((b :: rest).take w.width) = group at hm hgroup hread ⊢
      obtain ⟨s, tail, rfl⟩ := List.exists_cons_of_length_pos (hgroup ▸ hsize)
      obtain ⟨m, rfl⟩ : ∃ k, m = k + 1 := by
        rw [List.length_append, List.length_cons] at hm
        exact ⟨m - 1, by omega⟩
      have hmore := ih m ((b :: rest).drop w.width) hdrop (by
        rw [List.length_append, List.length_cons] at hm
        omega)
      have htake : (s :: tail ++ w.encodeGroups n ((b :: rest).drop w.width)).take w.groupSize =
          s :: tail := List.take_left' hgroup
      have hbehind : (s :: tail ++ w.encodeGroups n ((b :: rest).drop w.width)).drop w.groupSize =
          w.encodeGroups n ((b :: rest).drop w.width) := List.drop_left' hgroup
      rw [List.cons_append] at htake hbehind ⊢
      rw [decodeGroups?, htake, if_neg (by omega), hread, hbehind, hmore, Option.bind_some,
        Option.map_some, List.take_append_drop]
      exact List.cons_ne_nil _ _

/-- What is written in symbols is read as it was. -/
theorem decode?_encode (data : Bytes) : decode? w.toAlphabet (w.encode data) = some data :=
  w.decodeGroups?_encodeGroups _ _ data (Nat.le_refl _) (Nat.le_refl _)

/-- What is written are symbols and padding. -/
lemma mem_encodeGroups {n : Nat} {data : Bytes} {b : UInt8} (h : b ∈ w.encodeGroups n data) :
    b = padding ∨ ∃ d < 2 ^ w.bits, b = w.symbol d := by
  induction n generalizing data with
  | zero => cases data <;> cases h
  | succ n ih =>
    cases data with
    | nil => cases h
    | cons o rest =>
      rcases List.mem_append.mp h with h | h
      · rcases List.mem_append.mp h with h | h
        · obtain ⟨d, hd, rfl⟩ := List.mem_map.mp h
          exact .inr ⟨d, digits_lt (Nat.two_pow_pos _) d hd, rfl⟩
        · exact .inl (List.eq_of_mem_replicate h)
      · exact ih h

end Writing

/-- The symbols of base 64 in the order of the digits. -/
def symbols64 : Bytes :=
  Text.Utf8.encode "ABCDEFGHIJKLMNOPQRSTUVWXYZabcdefghijklmnopqrstuvwxyz0123456789+/"

/-- Base 64 as it is written. -/
def writing64 : Writing where
  toAlphabet := base64
  symbol d := symbols64.getD d padding
  bits_pos := by decide
  bits_le := by decide
  groupSize_pos := by decide
  whole := by decide
  digit_symbol := by decide +kernel
  digit_padding := rfl

lemma symbol64 : ∀ d < 2 ^ writing64.bits,
    isBase64Symbol (writing64.symbol d) ∧ (writing64.symbol d).toNat < 0x80 := by
  decide +kernel

/-- Whatever is written in base 64 is read as it was. -/
theorem decodeBase64_encode (data : Bytes) : decodeBase64 (writing64.encode data) = .ok data := by
  have hfilter : (writing64.encode data).filter isBase64Symbol = writing64.encode data := by
    refine List.filter_eq_self.mpr fun b hb => ?_
    obtain rfl | ⟨d, hd, rfl⟩ := writing64.mem_encodeGroups hb
    · rfl
    · exact (symbol64 d hd).1
  rw [decodeBase64, hfilter]
  exact congrArg DecodeError.base64.unlessSome (writing64.decode?_encode data)

/-- What may stand in base 64 are its symbols and padding. -/
lemma isBase64Symbol_iff (b : UInt8) : isBase64Symbol b = true ↔ b ∈ symbols64 ∨ b = padding := by
  have hsymbol : ∀ b, ∀ d ∈ base64.digit? b, symbols64[d]? = some b :=
    Text.Utf8.forall_octet (by decide +kernel)
  have hdigit : ∀ b ∈ symbols64, (base64.digit? b).isSome := by decide +kernel
  rw [isBase64Symbol, Bool.or_eq_true, beq_iff_eq]
  refine or_congr_left ⟨fun h => ?_, hdigit b⟩
  obtain ⟨d, hd⟩ := Option.isSome_iff_exists.mp h
  exact List.mem_of_getElem? (hsymbol b d hd)

/-- Octets in base 64, as a text. -/
def text64 (data : Bytes) : String := Text.Utf8.ofAscii (writing64.encode data)

lemma ascii_encode64 (data : Bytes) : ∀ b ∈ writing64.encode data, b.toNat < 0x80 := by
  intro b hb
  obtain rfl | ⟨d, hd, rfl⟩ := writing64.mem_encodeGroups hb
  · decide
  · exact (symbol64 d hd).2

/-- The symbols of base 32 in the order of the digits. -/
def symbols32 : Bytes := Text.Utf8.encode "ABCDEFGHIJKLMNOPQRSTUVWXYZ234567"

/-- Base 32 as it is written. -/
def writing32 : Writing where
  toAlphabet := base32
  symbol d := symbols32.getD d padding
  bits_pos := by decide
  bits_le := by decide
  groupSize_pos := by decide
  whole := by decide
  digit_symbol := by decide +kernel
  digit_padding := rfl

/-- Whatever is written in base 32 is read as it was. -/
theorem decodeBase32_encode (data : Bytes) : decodeBase32 (writing32.encode data) = .ok data :=
  congrArg DecodeError.base32.unlessSome (writing32.decode?_encode data)

end Unmask.Radix
