import Unmask.Proofs.Slicing

/-!
# Sizes of folded values

Integers have at most `maxBits` bits and sequences at most `maxLength` elements. Operators, elements
and slices keep to that, each for a reason of its own: some are refused by the size of the result,
some by those of the operands, and some give nothing that is larger than an operand. Only the
bitwise operators fail to, and for one number: the row of bits of a negative number ends where that
of its complement does, and the least row that ends in time is that of `-2 ^ maxBits`, whose
magnitude takes one bit more.
-/
namespace Unmask

namespace Integer

variable {m n : Int} {k : Nat}

/-- A number of so many bits has a magnitude below that power of two. -/
lemma bitLength_le_iff : bitLength n ≤ k ↔ n.natAbs < 2 ^ k := by
  unfold bitLength
  split
  · next h => simp [h]
  · next h => rw [Nat.succ_le_iff, Nat.log2_lt (Int.natAbs_ne_zero.mpr h)]

lemma natAbs_lt (n : Int) : n.natAbs < 2 ^ bitLength n := bitLength_le_iff.mp le_rfl

lemma bitLength_neg (n : Int) : bitLength (-n) = bitLength n := by
  simp [bitLength]

lemma bitLength_mul_le (m n : Int) : bitLength (m * n) ≤ bitLength m + bitLength n := by
  rw [bitLength_le_iff, Int.natAbs_mul, Nat.pow_add]
  exact Nat.mul_lt_mul'' (natAbs_lt m) (natAbs_lt n)

lemma bitLength_shiftLeft_le (n : Int) (count : Nat) :
    bitLength (shiftLeft n count) ≤ bitLength n + count := by
  rw [bitLength_le_iff, shiftLeft, Int.natAbs_mul, Nat.pow_add]
  exact Nat.mul_lt_mul_of_pos_right (natAbs_lt n) (Nat.two_pow_pos count)

/-- A quotient that is rounded down has no more bits than the dividend. -/
lemma bitLength_fdiv_le (m n : Int) : bitLength (m.fdiv n) ≤ bitLength m := by
  rw [bitLength_le_iff]
  exact lt_of_le_of_lt (Int.natAbs_fdiv_le_natAbs m n) (natAbs_lt m)

lemma natAbs_fmod_lt (m : Int) (hn : n ≠ 0) : (m.fmod n).natAbs < n.natAbs := by
  obtain hneg | hpos := lt_or_gt_of_ne hn
  · have hflip : (-m).fmod (-n) = -m.fmod n := Int.neg_fmod_neg m n
    have hnonneg := Int.fmod_nonneg_of_pos (-m) (Int.neg_pos_of_neg hneg)
    have hlt := Int.fmod_lt_of_pos (-m) (Int.neg_pos_of_neg hneg)
    omega
  · have hnonneg := Int.fmod_nonneg_of_pos m hpos
    have hlt := Int.fmod_lt_of_pos m hpos
    omega

/-- A remainder has no more bits than the divisor. -/
lemma bitLength_fmod_le (m : Int) (hn : n ≠ 0) : bitLength (m.fmod n) ≤ bitLength n := by
  rw [bitLength_le_iff]
  exact lt_trans (natAbs_fmod_lt m hn) (natAbs_lt n)

lemma bitLength_shiftRight_le (n : Int) (count : Nat) :
    bitLength (shiftRight n count) ≤ bitLength n := by
  unfold shiftRight
  split
  · split
    · next hneg =>
      have hpos : 0 < bitLength n := by rw [bitLength, if_neg hneg.ne]; omega
      exact hpos
    · exact Nat.zero_le _
  · exact bitLength_fdiv_le n _

/-- A power has no more bits than all its factors together, but the one of no factors has one. -/
lemma bitLength_power_le {exponent : Nat} (hk : 0 < k) (h : bitLength n * exponent ≤ k) :
    bitLength (power n exponent) ≤ k := by
  have hmagnitude : (power n exponent).natAbs = n.natAbs ^ exponent := by
    unfold power
    split
    · rw [Int.natAbs_neg]; rfl
    · rfl
  rw [bitLength_le_iff, hmagnitude]
  cases exponent with
  | zero => exact Nat.one_lt_two_pow hk.ne'
  | succ e =>
    calc n.natAbs ^ (e + 1)
        < (2 ^ bitLength n) ^ (e + 1) := Nat.pow_lt_pow_left (natAbs_lt n) e.succ_ne_zero
      _ = 2 ^ (bitLength n * (e + 1)) := (Nat.pow_mul 2 _ _).symm
      _ ≤ 2 ^ k := Nat.pow_le_pow_right Nat.two_pos h

/-- Where the row of bits of a number ends: the endless zeros or ones begin at the place `k`. -/
def Ends (k : Nat) : Int → Prop
  | .ofNat m => m < 2 ^ k
  | .negSucc m => m < 2 ^ k

lemma Ends.of_bitLength (h : bitLength n ≤ k) : Ends k n := by
  rw [bitLength_le_iff] at h
  cases n with
  | ofNat m => exact h
  | negSucc m => exact lt_trans m.lt_succ_self h

/-- A row of bits that ends is that of a number of so many bits, or of the least number. -/
lemma Ends.bitLength_le (h : Ends k n) : bitLength n ≤ k ∨ n = -2 ^ k := by
  rw [bitLength_le_iff]
  cases n with
  | ofNat m => exact .inl h
  | negSucc m =>
    obtain hlt | heq := Nat.lt_or_eq_of_le (Nat.succ_le_of_lt h)
    · exact .inl hlt
    · right
      rw [Int.negSucc_eq, ← Nat.cast_succ, heq]
      push_cast
      rfl

/-- The least number has one bit more. -/
lemma lt_bitLength_least (k : Nat) : k < bitLength (-2 ^ k) := by
  rw [← Nat.not_le, bitLength_le_iff, Int.natAbs_neg, Int.natAbs_pow]
  exact lt_irrefl _

lemma maskOut_lt {p q : Nat} (hp : p < 2 ^ k) : maskOut p q < 2 ^ k :=
  Nat.xor_lt_two_pow hp (lt_of_le_of_lt Nat.and_le_left hp)

/-- What is left of a number when digits are taken out is no larger. -/
lemma maskOut_le (p q : Nat) : maskOut p q ≤ p := by
  have hand : maskOut p q = p &&& (p ^^^ q) := by
    apply Nat.eq_of_testBit_eq
    intro i
    simp only [maskOut, Nat.testBit_xor, Nat.testBit_and]
    cases p.testBit i <;> cases q.testBit i <;> rfl
  rw [hand]
  exact Nat.and_le_left

lemma ends_bitNot (h : Ends k n) : Ends k (bitNot n) := by
  cases n with
  | ofNat m =>
    have hnot : bitNot (.ofNat m) = .negSucc m := by rw [bitNot, Int.negSucc_eq]; simp; omega
    rw [hnot]
    exact h
  | negSucc m =>
    have hnot : bitNot (.negSucc m) = .ofNat m := by rw [bitNot, Int.negSucc_eq]; simp
    rw [hnot]
    exact h

lemma ends_bitAnd (hm : Ends k m) (hn : Ends k n) : Ends k (bitAnd m n) := by
  cases m with
  | ofNat p =>
    cases n with
    | ofNat q => exact lt_of_le_of_lt Nat.and_le_left hm
    | negSucc q => exact maskOut_lt hm
  | negSucc p =>
    cases n with
    | ofNat q => exact maskOut_lt hn
    | negSucc q => exact Nat.or_lt_two_pow hm hn

lemma ends_bitXor (hm : Ends k m) (hn : Ends k n) : Ends k (bitXor m n) := by
  cases m <;> cases n <;> exact Nat.xor_lt_two_pow hm hn

/-- Ones where one of two numbers has a one need no more bits than the numbers. -/
lemma bitLength_bitOr_le (hm : bitLength m ≤ k) (hn : bitLength n ≤ k) :
    bitLength (bitOr m n) ≤ k := by
  rw [bitLength_le_iff] at *
  cases m with
  | ofNat p =>
    cases n with
    | ofNat q => exact Nat.or_lt_two_pow hm hn
    | negSucc q => exact lt_of_le_of_lt (Nat.succ_le_succ (maskOut_le q p)) hn
  | negSucc p =>
    cases n with
    | ofNat q => exact lt_of_le_of_lt (Nat.succ_le_succ (maskOut_le p q)) hm
    | negSucc q => exact lt_of_le_of_lt (Nat.succ_le_succ Nat.and_le_left) hm

end Integer

namespace Value

mutual

/-- A value, with all that is in it, has no integer of more than `maxBits` bits and no sequence of
more than `maxLength` elements. -/
def Bounded : Value → Prop
  | .int n => Integer.bitLength n ≤ maxBits
  | .str s => s.length ≤ maxLength
  | .bytes b => b.length ≤ maxLength
  | .list items => items.length ≤ maxLength ∧ AllBounded items
  | _ => True

def AllBounded : List Value → Prop
  | [] => True
  | v :: rest => v.Bounded ∧ AllBounded rest

end

/-- The integer whose row of bits is `maxBits` zeros below ones without end. -/
def least : Value := .int (-2 ^ maxBits)

variable {a b r : Value} {items : List Value}

lemma allBounded_iff : AllBounded items ↔ ∀ v ∈ items, v.Bounded := by
  induction items with
  | nil => simp [AllBounded]
  | cons v rest ih => simp [AllBounded, ih]

lemma bounded_list : (Value.list items).Bounded ↔
    items.length ≤ maxLength ∧ ∀ v ∈ items, v.Bounded := by
  rw [Bounded, allBounded_iff]

lemma not_bounded_least : ¬ least.Bounded :=
  Nat.not_le.mpr (Integer.lt_bitLength_least maxBits)

lemma maxBits_pos : 0 < maxBits := by decide

/-- A number of a bounded value has few bits, if it is an integer. -/
lemma number?_bounded {n : Int} (ha : a.Bounded) (h : a.number? = some (.int n)) :
    Integer.bitLength n ≤ maxBits := by
  cases a with
  | int m =>
    cases h
    exact ha
  | bool p =>
    cases h
    cases p <;> decide
  | none | float | str | bytes | list => cases h

/-- Integers whose bits end in time are small, but for the least one. -/
lemma bounded_or_least {n : Int} (h : Integer.Ends maxBits n) :
    (Value.int n).Bounded ∨ Value.int n = least :=
  h.bitLength_le.imp id (congrArg Value.int)

lemma unary_bounded {op : UnaryOp} (ha : a.Bounded) (h : a.unary op = .ok r) :
    r.Bounded ∨ op = .invert ∧ r = least := by
  unfold unary at h
  split at h
  · cases h
    exact .inl trivial
  · next hn =>
    cases h
    exact .inl (number?_bounded ha hn)
  · next n hn =>
    cases h
    exact .inl ((Integer.bitLength_neg n).trans_le (number?_bounded ha hn))
  · next n hn =>
    cases h
    have hends := Integer.ends_bitNot (Integer.Ends.of_bitLength (number?_bounded ha hn))
    exact (bounded_or_least hends).imp_right fun h => ⟨rfl, h⟩
  · cases h
    exact .inl trivial
  · cases h
    exact .inl trivial
  · contradiction

lemma floatBinary_bounded {op : BinaryOp} {x y : Float} (h : Number.floatBinary op x y = .ok r) :
    r.Bounded := by
  cases op <;> simp only [Number.floatBinary] at h <;> (try split at h) <;> cases h <;> trivial

/-- What comes out behind a step comes out of the rest. -/
lemma exists_of_bind {ε α β : Type} {x : Except ε α} {f : α → Except ε β} {y : β}
    (h : x >>= f = .ok y) : ∃ z, f z = .ok y := by
  cases x with
  | error => contradiction
  | ok z => exact ⟨z, h⟩

lemma intAsFloatBinary_bounded {op : BinaryOp} {m n : Int}
    (h : Number.intAsFloatBinary op m n = .ok r) : r.Bounded := by
  obtain ⟨x, h⟩ := exists_of_bind h
  obtain ⟨y, h⟩ := exists_of_bind h
  exact floatBinary_bounded h

lemma floatOperands_bounded {op : BinaryOp} {x y : Number}
    (h : floatOperands op a b x y = .ok r) : r.Bounded := by
  obtain ⟨x, h⟩ := exists_of_bind h
  obtain ⟨y, h⟩ := exists_of_bind h
  cases hresult : Number.floatBinary op x y with
  | error e =>
    rw [hresult] at h
    cases e <;> contradiction
  | ok v =>
    rw [hresult] at h
    cases h
    exact floatBinary_bounded hresult

/-- A result that is given unless some condition holds. -/
lemma of_unless {ε α : Type} {p : Prop} [Decidable p] {e : ε} {x : Except ε α} {y : α}
    (h : (if p then .error e else x) = .ok y) : ¬ p ∧ x = .ok y := by
  split at h
  · contradiction
  · next hp => exact ⟨hp, h⟩

section Integers

variable {m n : Int} (hm : Integer.bitLength m ≤ maxBits) (hn : Integer.bitLength n ≤ maxBits)

lemma bounded_bounded {op : BinaryOp} (h : Number.bounded op n = .ok r) : r.Bounded := by
  obtain ⟨hsize, h⟩ := of_unless h
  cases h
  exact Nat.not_lt.mp hsize

lemma product_bounded (h : Number.product m n = .ok r) : r.Bounded := by
  obtain ⟨hsize, h⟩ := of_unless h
  cases h
  exact (Integer.bitLength_mul_le m n).trans (Nat.not_lt.mp hsize)

lemma power_bounded (h : Number.power m n = .ok r) : r.Bounded := by
  unfold Number.power at h
  split at h
  · exact intAsFloatBinary_bounded h
  · split at h
    · next hsize =>
      cases h
      have hsize := (Bool.and_eq_true_iff.mp hsize).2
      exact Integer.bitLength_power_le maxBits_pos (of_decide_eq_true hsize)
    · contradiction

lemma shiftLeft_bounded (h : Number.shiftLeft m n = .ok r) : r.Bounded := by
  obtain ⟨-, h⟩ := of_unless h
  obtain ⟨hsize, h⟩ := of_unless h
  cases h
  exact (Integer.bitLength_shiftLeft_le m n.toNat).trans (Nat.not_lt.mp hsize)

include hm in
lemma shiftRight_bounded (h : Number.shiftRight m n = .ok r) : r.Bounded := by
  obtain ⟨-, h⟩ := of_unless h
  cases h
  exact (Integer.bitLength_shiftRight_le m n.toNat).trans hm

include hm hn in
lemma intBinary_bounded {op : BinaryOp} (h : Number.intBinary op m n = .ok r) :
    r.Bounded ∨ op ∈ [.bitAnd, .bitXor] ∧ r = least := by
  cases op with
  | add | sub => exact .inl (bounded_bounded h)
  | mult => exact .inl (product_bounded h)
  | pow => exact .inl (power_bounded h)
  | shiftLeft => exact .inl (shiftLeft_bounded h)
  | shiftRight => exact .inl (shiftRight_bounded hm h)
  | matMult => contradiction
  | div =>
    obtain ⟨-, h⟩ := of_unless h
    exact .inl (intAsFloatBinary_bounded h)
  | floorDiv =>
    obtain ⟨-, h⟩ := of_unless h
    cases h
    exact .inl ((Integer.bitLength_fdiv_le m n).trans hm)
  | mod =>
    obtain ⟨hzero, h⟩ := of_unless h
    cases h
    exact .inl ((Integer.bitLength_fmod_le m (by simpa using hzero)).trans hn)
  | bitOr =>
    cases h
    exact .inl (Integer.bitLength_bitOr_le hm hn)
  | bitAnd =>
    cases h
    have hends := Integer.ends_bitAnd (.of_bitLength hm) (.of_bitLength hn)
    exact (bounded_or_least hends).imp_right fun h => ⟨by decide, h⟩
  | bitXor =>
    cases h
    have hends := Integer.ends_bitXor (.of_bitLength hm) (.of_bitLength hn)
    exact (bounded_or_least hends).imp_right fun h => ⟨by decide, h⟩

end Integers

/-- Every character takes an octet at least. -/
lemma length_le_utf8ByteSize (s : String) : s.length ≤ s.utf8ByteSize := by
  induction s using String.push_induction with
  | empty => simp
  | push t c ih =>
    rw [String.length_push, String.utf8ByteSize_push]
    exact Nat.add_le_add ih c.utf8Size_pos

lemma length_copies {α : Type} (times : Nat) (items : List α) :
    (copies times items).length = items.length * times := by
  unfold copies
  split
  · next h => simp [List.isEmpty_iff.mp h]
  · simp [Nat.mul_comm]

lemma mem_of_mem_copies {α : Type} {times : Nat} {items : List α} {x : α}
    (h : x ∈ copies times items) : x ∈ items := by
  unfold copies at h
  split at h
  · contradiction
  · obtain ⟨row, hrow, hx⟩ := List.mem_flatten.mp h
    rwa [List.eq_of_mem_replicate hrow] at hx

lemma joined_bounded (ha : a.Bounded) (hb : b.Bounded) (h : joined? a b = some (.ok r)) :
    r.Bounded := by
  unfold joined? at h
  split at h
  · next s t =>
    obtain ⟨hsize, h⟩ := of_unless (Option.some.inj h)
    cases h
    have hs := length_le_utf8ByteSize s
    have ht := length_le_utf8ByteSize t
    rw [Bounded, String.length_append]
    omega
  · obtain ⟨hsize, h⟩ := of_unless (Option.some.inj h)
    cases h
    rw [Bounded, List.length_append]
    omega
  · obtain ⟨hsize, h⟩ := of_unless (Option.some.inj h)
    cases h
    rw [bounded_list] at *
    refine ⟨?_, fun v hv => (List.mem_append.mp hv).elim (ha.2 v) (hb.2 v)⟩
    rw [List.length_append]
    omega
  · contradiction

lemma repeated_bounded (ha : a.Bounded) (h : a.repeated? b = some (.ok r)) : r.Bounded := by
  obtain ⟨n, -, h⟩ := Option.bind_eq_some_iff.mp h
  cases a with
  | str s =>
    obtain ⟨hsize, h⟩ := of_unless (Option.some.inj h)
    cases h
    have hs := Nat.mul_le_mul_right n.toNat (length_le_utf8ByteSize s)
    rw [Bounded, String.length_ofList, length_copies, String.length_toList]
    omega
  | bytes p =>
    obtain ⟨hsize, h⟩ := of_unless (Option.some.inj h)
    cases h
    rw [Bounded, length_copies]
    omega
  | list items =>
    obtain ⟨hsize, h⟩ := of_unless (Option.some.inj h)
    cases h
    rw [bounded_list] at *
    refine ⟨?_, fun v hv => ha.2 v (mem_of_mem_copies hv)⟩
    rw [length_copies]
    omega
  | none | bool | int | float => contradiction

lemma numericBinary_bounded {op : BinaryOp} (ha : a.Bounded) (hb : b.Bounded)
    (h : numericBinary op a b = .ok r) : r.Bounded ∨ op ∈ [.bitAnd, .bitXor] ∧ r = least := by
  unfold numericBinary at h
  split at h
  · next hm hn => exact intBinary_bounded (number?_bounded ha hm) (number?_bounded hb hn) h
  · exact .inl (floatOperands_bounded h)
  · contradiction

/-- A result that comes from elsewhere where there is none. -/
lemma of_getD {α : Type} {x : Option α} {y z : α} (h : x.getD y = z) : x = some z ∨ y = z := by
  cases x with
  | none => exact .inr h
  | some x => exact .inl (congrArg some h)

lemma binary_bounded {op : BinaryOp} (ha : a.Bounded) (hb : b.Bounded)
    (h : a.binary op b = .ok r) : r.Bounded ∨ op ∈ [.bitAnd, .bitXor] ∧ r = least := by
  have hnumeric {op} (h : numericBinary op a b = .ok r) := numericBinary_bounded ha hb h
  unfold binary at h
  split at h
  · obtain h | h := of_getD h
    · exact .inl (joined_bounded ha hb h)
    · exact hnumeric h
  · split at h
    · obtain h | h := of_getD h
      · exact .inl (repeated_bounded ha h)
      · contradiction
    · split at h
      · obtain h | h := of_getD h
        · exact .inl (repeated_bounded hb h)
        · contradiction
      · exact hnumeric h
  · split at h
    · split at h
      · cases h
        exact .inl trivial
      · exact hnumeric h
    · exact hnumeric h

lemma mem_of_element? {α : Type} {items : List α} {n : Int} {x : α}
    (h : element? items n = some x) : x ∈ items := by
  obtain ⟨p, -, hp⟩ := Option.bind_eq_some_iff.mp h
  exact List.mem_of_getElem? hp

/-- An octet is a small number. -/
lemma bitLength_octet_le (o : UInt8) : Integer.bitLength o.toNat ≤ maxBits := by
  rw [Integer.bitLength_le_iff]
  exact lt_of_lt_of_le o.toNat_lt (Nat.pow_le_pow_right Nat.two_pos (by decide))

lemma index_bounded (ha : a.Bounded) (h : a.index b = .ok r) : r.Bounded := by
  unfold index at h
  split at h
  · contradiction
  · next n _ =>
    cases a with
    | str s =>
      cases he : element? s.toList n with
      | none => simp [he] at h
      | some c =>
        obtain rfl : str (String.singleton c) = r := by simpa [he] using h
        rw [Bounded, String.length_singleton]
        decide
    | bytes o =>
      cases he : element? o n with
      | none => simp [he] at h
      | some octet =>
        obtain rfl : int octet.toNat = r := by simpa [he] using h
        exact bitLength_octet_le octet
    | list items =>
      cases he : element? items n with
      | none => simp [he] at h
      | some v =>
        obtain rfl : v = r := by simpa [he] using h
        exact (bounded_list.mp ha).2 v (mem_of_element? he)
    | none | bool | int | float => contradiction

lemma steps_le {distance size : Int} {length : Nat} (hs : 0 < size) (hd : distance ≤ length) :
    ((distance + size - 1).fdiv size).toNat ≤ length := by
  obtain hd' | hd' := le_or_gt distance 0
  · rw [Evaluation.steps_stopped hs hd']
    exact Nat.zero_le _
  · have hle : (distance + size - 1) / size ≤ distance := by
      rw [← Int.lt_add_one_iff]
      apply Int.ediv_lt_of_lt_mul hs
      nlinarith
    rw [Int.fdiv_eq_ediv_of_nonneg _ hs.le]
    omega

/-- A slice has no more places than the sequence. -/
lemma length_places_le {bounds : Bounds} {length : Nat} (hs : bounds.step ≠ some 0) :
    (bounds.places length).length ≤ length := by
  have hstep : bounds.step.getD 1 ≠ 0 := by
    cases h : bounds.step with
    | none => decide
    | some n => exact fun h' => hs (h.trans (congrArg some h'))
  have hfirst := Evaluation.firstPlace_bounds length (bounds.step.getD 1) bounds.lower
  have hend := Evaluation.endPlace_bounds length (bounds.step.getD 1) bounds.upper
  rw [Bounds.places, Evaluation.resolve_eq, List.length_map, List.length_range]
  obtain hneg | hpos := lt_or_gt_of_ne hstep
  · rw [Evaluation.count_down hneg]
    exact steps_le (by omega) (by omega)
  · rw [Evaluation.count_up hpos]
    exact steps_le hpos (by omega)

lemma length_select_le {α : Type} {bounds : Bounds} (items : List α) (hs : bounds.step ≠ some 0) :
    (bounds.select items).length ≤ items.length :=
  (List.length_filterMap_le _ _).trans (length_places_le hs)

lemma mem_of_mem_select {α : Type} {bounds : Bounds} {items : List α} {x : α}
    (h : x ∈ bounds.select items) : x ∈ items := by
  obtain ⟨p, -, hp⟩ := List.mem_filterMap.mp h
  rw [List.getElem?_toArray] at hp
  exact List.mem_of_getElem? hp

lemma slice_bounded {bounds : Bounds} (ha : a.Bounded) (h : a.slice bounds = .ok r) :
    r.Bounded := by
  cases a with
  | str s =>
    obtain ⟨hs, h⟩ := of_unless h
    cases h
    rw [Bounded, String.length_ofList]
    exact (length_select_le s.toList hs).trans ha
  | bytes o =>
    obtain ⟨hs, h⟩ := of_unless h
    cases h
    exact (length_select_le o hs).trans ha
  | list items =>
    obtain ⟨hs, h⟩ := of_unless h
    cases h
    rw [bounded_list] at *
    exact ⟨(length_select_le items hs).trans ha.1, fun v hv => ha.2 v (mem_of_mem_select hv)⟩
  | none | bool | int | float => contradiction

/-- What bounded values give is bounded, unless it is the least number: `~`, `&` and `^` give that
unrefused, and they alone. -/
theorem bounded_iff (ha : a.Bounded) (hb : b.Bounded) :
    (∀ op r, a.unary op = .ok r → (r.Bounded ↔ ¬(op = .invert ∧ r = least))) ∧
    (∀ op r, a.binary op b = .ok r → (r.Bounded ↔ ¬(op ∈ [.bitAnd, .bitXor] ∧ r = least))) ∧
    (∀ r, a.index b = .ok r → r.Bounded) ∧
    ∀ bounds r, a.slice bounds = .ok r → r.Bounded := by
  have hleast {p : Prop} {r : Value} (hr : r.Bounded) : ¬(p ∧ r = least) :=
    fun h => not_bounded_least (h.2 ▸ hr)
  refine ⟨fun op r h => ⟨hleast, (unary_bounded ha h).resolve_right⟩,
    fun op r h => ⟨hleast, (binary_bounded ha hb h).resolve_right⟩,
    fun r h => index_bounded ha h, fun bounds r h => slice_bounded ha h⟩

theorem bounded_repeated : (Value.str "ab").Bounded ∧ (Value.int 3).Bounded ∧
    (Value.str "ab").binary .mult (.int 3) = .ok (.str "ababab") ∧
    (Value.str "ababab").Bounded := by
  have htext : (Value.str "ab").Bounded := by
    rw [Bounded]
    decide
  have hcount : (Value.int 3).Bounded := by
    rw [Bounded]
    decide
  have hresult : (Value.str "ab").binary .mult (.int 3) = .ok (.str "ababab") := by rfl
  refine ⟨htext, hcount, hresult, ?_⟩
  exact ((bounded_iff htext hcount).2.1 .mult _ hresult).mpr fun h => absurd h.1 (by decide)

/-- The largest number of `maxBits` bits is inverted, and the result has one bit more. -/
theorem invert_not_bounded : (Value.int (2 ^ maxBits - 1)).Bounded ∧
    (Value.int (2 ^ maxBits - 1)).unary .invert = .ok least ∧ ¬ least.Bounded := by
  have hpos : (0 : Int) < 2 ^ maxBits := Int.pow_pos (by decide)
  refine ⟨?_, ?_, not_bounded_least⟩
  · have hcast : ((2 ^ maxBits : Nat) : Int) = 2 ^ maxBits := Int.natCast_pow 2 maxBits
    rw [Bounded, Integer.bitLength_le_iff]
    omega
  · have hnot : Integer.bitNot (2 ^ maxBits - 1) = -2 ^ maxBits := by
      rw [Integer.bitNot]
      omega
    exact congrArg (Except.ok ∘ Value.int) hnot

end Value
end Unmask
