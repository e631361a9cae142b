import Mathlib.Algebra.Order.Ring.Abs
import Unmask.Proofs.Sizes

/-!
# Exact arithmetic

An operator gives what the language gives, or the operands are refused. Integers are taken as
endless rows of binary digits by the bitwise operators, quotients are rounded down, and a sequence
times a number is that many copies in a row. What is too large is refused, and nothing else but a
zero divisor and a negative shift.
-/
namespace Unmask

namespace Integer

variable {m n : Int}

/-- The digit of a number at a place of its endless row: whether the number, with the digits below
that place taken off, is odd. -/
def digit (n : Int) (place : Nat) : Bool := decide (n / 2 ^ place % 2 = 1)

lemma digit_natCast (m place : Nat) : digit m place = m.testBit place := by
  have hquotient : (m : Int) / 2 ^ place = ((m / 2 ^ place : Nat) : Int) := by
    push_cast
    rfl
  rw [digit, hquotient, Nat.testBit_eq_decide_div_mod_eq]
  congr 1
  rw [eq_iff_iff]
  omega

lemma digit_negSucc (m place : Nat) : digit (.negSucc m) place = !m.testBit place := by
  have hquotient : (Int.negSucc m) / 2 ^ place = -((m / 2 ^ place : Nat) + 1 : Int) := by
    rw [Int.negSucc_ediv m (by positivity)]
    push_cast
    rfl
  rw [digit, hquotient, Nat.testBit_eq_decide_div_mod_eq, ← decide_not]
  congr 1
  rw [eq_iff_iff]
  omega

lemma testBit_maskOut (p q place : Nat) :
    (maskOut p q).testBit place = (p.testBit place && !q.testBit place) := by
  simp only [maskOut, Nat.testBit_xor, Nat.testBit_and]
  cases p.testBit place <;> cases q.testBit place <;> rfl

lemma digit_bitAnd (m n : Int) (place : Nat) :
    digit (bitAnd m n) place = (digit m place && digit n place) := by
  cases m <;> cases n <;>
    simp [bitAnd, digit_natCast, digit_negSucc, testBit_maskOut, Bool.and_comm]

lemma digit_bitOr (m n : Int) (place : Nat) :
    digit (bitOr m n) place = (digit m place || digit n place) := by
  cases m <;> cases n <;>
    simp [bitOr, digit_natCast, digit_negSucc, testBit_maskOut, Bool.or_comm]

lemma digit_bitXor (m n : Int) (place : Nat) :
    digit (bitXor m n) place = (digit m place ^^ digit n place) := by
  cases m <;> cases n <;> simp [bitXor, digit_natCast, digit_negSucc]

/-- A truth value has one digit. -/
lemma digit_truth (p : Bool) (place : Nat) :
    digit (if p then 1 else 0) place = (p && decide (place = 0)) := by
  cases p with
  | false => simpa using digit_natCast 0 place
  | true =>
    have hone : Nat.testBit 1 place = decide (place = 0) := by
      rw [← Nat.pow_zero 2, Nat.testBit_two_pow]
      exact decide_eq_decide.mpr eq_comm
    simpa [hone] using digit_natCast 1 place

/-- Far out the digits are those of the sign. -/
lemma digit_far {place : Nat} (h : n.natAbs < 2 ^ place) : digit n place = decide (n < 0) := by
  cases n with
  | ofNat m =>
    have hm : m < 2 ^ place := h
    simp [digit_natCast, Nat.testBit_lt_two_pow hm]
  | negSucc m =>
    have hm : m < 2 ^ place := lt_trans m.lt_succ_self h
    simp [digit_negSucc, Nat.testBit_lt_two_pow hm]

/-- Numbers with the same digits are the same. -/
lemma eq_of_digits (h : ∀ place, digit m place = digit n place) : m = n := by
  have hsign : m < 0 ↔ n < 0 := by
    have hm : m.natAbs < 2 ^ (m.natAbs + n.natAbs) :=
      lt_of_le_of_lt (Nat.le_add_right _ _) Nat.lt_two_pow_self
    have hn : n.natAbs < 2 ^ (m.natAbs + n.natAbs) :=
      lt_of_le_of_lt (Nat.le_add_left _ _) Nat.lt_two_pow_self
    rw [← decide_eq_decide, ← digit_far hm, ← digit_far hn]
    exact h _
  cases m with
  | ofNat p =>
    cases n with
    | ofNat q =>
      refine congrArg Int.ofNat (Nat.eq_of_testBit_eq fun place => ?_)
      simpa [digit_natCast] using h place
    | negSucc q => exact absurd (hsign.mpr (Int.negSucc_lt_zero q)) (Int.natCast_nonneg p).not_gt
  | negSucc p =>
    cases n with
    | ofNat q => exact absurd (hsign.mp (Int.negSucc_lt_zero p)) (Int.natCast_nonneg q).not_gt
    | negSucc q =>
      refine congrArg Int.negSucc (Nat.eq_of_testBit_eq fun place => ?_)
      simpa [digit_negSucc] using h place

lemma power_eq (base : Int) (exponent : Nat) : power base exponent = base ^ exponent := by
  have hmagnitude : ((Nat.pow base.natAbs exponent : Nat) : Int) = |base| ^ exponent := by
    rw [← Int.natCast_natAbs]
    exact Int.natCast_pow _ _
  unfold power
  dsimp only
  rw [hmagnitude]
  split
  · next h =>
    obtain ⟨hneg, hodd⟩ : base < 0 ∧ exponent % 2 = 1 := by simpa using h
    rw [abs_of_neg hneg, Odd.neg_pow (Nat.odd_iff.mpr hodd), neg_neg]
  · next h =>
    obtain hneg | hnonneg := lt_or_ge base 0
    · have hodd : ¬exponent % 2 = 1 := by simpa [hneg] using h
      exact Even.pow_abs (Nat.even_iff.mpr (by omega)) base
    · rw [abs_of_nonneg hnonneg]

/-- Once all digits are gone, what is left is the quotient too. -/
lemma shiftRight_eq (n : Int) (count : Nat) : shiftRight n count = n / 2 ^ count := by
  have hpow : ((Nat.pow 2 count : Nat) : Int) = 2 ^ count := Int.natCast_pow 2 count
  have hpos : (0 : Int) < 2 ^ count := by positivity
  unfold shiftRight
  split
  · next h =>
    have hlt : (n.natAbs : Int) < 2 ^ count := by
      rw [← hpow]
      exact Int.ofNat_lt.mpr (bitLength_le_iff.mp h)
    split
    · next hneg =>
      symm
      rw [Int.ediv_eq_iff_of_pos hpos]
      omega
    · next hnonneg =>
      symm
      rw [Int.ediv_eq_iff_of_pos hpos]
      omega
  · rw [hpow, Int.fdiv_eq_ediv_of_nonneg _ hpos.le]

end Integer

namespace Arithmetic
open Integer

variable {op : BinaryOp} {a b r : Int}

/-- Whether a number is left over by a division: it has the sign of the divisor and is nearer to
zero. -/
def Rests (divisor rest : Int) : Prop :=
  0 ≤ rest ∧ rest < divisor ∨ divisor < rest ∧ rest ≤ 0

/-- Whether a number is what an operator makes of two integers. -/
def Makes (op : BinaryOp) (a b r : Int) : Prop :=
  match op with
  | .add => r = a + b
  | .sub => r = a - b
  | .mult => r = a * b
  | .floorDiv => ∃ rest, a = b * r + rest ∧ Rests b rest
  | .mod => ∃ quotient, a = b * quotient + r ∧ Rests b r
  | .pow => 0 ≤ b ∧ r = a ^ b.toNat
  | .bitAnd => ∀ place, digit r place = (digit a place && digit b place)
  | .bitOr => ∀ place, digit r place = (digit a place || digit b place)
  | .bitXor => ∀ place, digit r place = (digit a place ^^ digit b place)
  | .shiftLeft => 0 ≤ b ∧ r = a * 2 ^ b.toNat
  | .shiftRight => 0 ≤ b ∧ r * 2 ^ b.toNat ≤ a ∧ a < (r + 1) * 2 ^ b.toNat
  | .div | .matMult => False

/-- Whether two integers are refused because of a result that is too large. A product, a power and
a shift are judged by their operands. -/
def Oversize (op : BinaryOp) (a b : Int) : Prop :=
  match op with
  | .add => maxBits < bitLength (a + b)
  | .sub => maxBits < bitLength (a - b)
  | .mult => maxBits < bitLength a + bitLength b
  | .pow => 2 ^ 32 ≤ b ∨ maxBits < bitLength a * b.toNat
  | .shiftLeft => 0 ≤ b ∧ maxBits < bitLength a + b.toNat
  | _ => False

/-- How an operation on two integers may end; `kind` is that of a result. -/
inductive Ends (op : BinaryOp) (a b : Int) (kind : Kind) : Except EvalError Value → Prop where
  | made {u : Value} {r : Int} (hk : u.kind = kind) (hu : u.asInt? = some r)
      (h : Makes op a b r) (hs : ¬Oversize op a b) : Ends op a b kind (.ok u)
  | tooLarge (hs : Oversize op a b) : Ends op a b kind (.error (.tooLarge (.binary op)))
  | divisionByZero (ho : op ∈ [.floorDiv, .mod]) (hb : b = 0) :
      Ends op a b kind (.error .divisionByZero)
  | negativeShift (ho : op ∈ [.shiftLeft, .shiftRight]) (hb : b < 0) :
      Ends op a b kind (.error (.invalid .negativeShift))

lemma rests_fmod (a : Int) (hb : b ≠ 0) : Rests b (a.fmod b) := by
  obtain hneg | hpos := lt_or_gt_of_ne hb
  · have hflip : (-a).fmod (-b) = -a.fmod b := Int.neg_fmod_neg a b
    have hnonneg := Int.fmod_nonneg_of_pos (-a) (Int.neg_pos_of_neg hneg)
    have hlt := Int.fmod_lt_of_pos (-a) (Int.neg_pos_of_neg hneg)
    right
    omega
  · exact .inl ⟨Int.fmod_nonneg_of_pos a hpos, Int.fmod_lt_of_pos a hpos⟩

/-- A dividend is divided in one way. -/
lemma rests_unique {q q' rest rest' : Int} (h : b * q + rest = b * q' + rest') (hr : Rests b rest)
    (hr' : Rests b rest') : q = q' ∧ rest = rest' := by
  have hdvd : b ∣ rest - rest' := ⟨q' - q, by linarith [mul_sub b q' q]⟩
  have hrest : rest = rest' := by
    have hsmall : (rest - rest').natAbs < b.natAbs := by
      unfold Rests at hr hr'
      omega
    exact sub_eq_zero.mp (Int.eq_zero_of_dvd_of_natAbs_lt_natAbs hdvd hsmall)
  subst hrest
  have hb : b ≠ 0 := by
    unfold Rests at hr
    omega
  exact ⟨mul_left_cancel₀ hb (add_right_cancel h), rfl⟩

/-- An operator makes at most one number of two integers. -/
lemma Makes.unique {r' : Int} (h : Makes op a b r) (h' : Makes op a b r') : r = r' := by
  cases op with
  | add | sub | mult => exact h.trans h'.symm
  | pow | shiftLeft => exact h.2.trans h'.2.symm
  | div | matMult => exact h.elim
  | floorDiv =>
    obtain ⟨rest, heq, hr⟩ := h
    obtain ⟨rest', heq', hr'⟩ := h'
    exact (rests_unique (heq.symm.trans heq') hr hr').1
  | mod =>
    obtain ⟨q, heq, hr⟩ := h
    obtain ⟨q', heq', hr'⟩ := h'
    exact (rests_unique (heq.symm.trans heq') hr hr').2
  | bitAnd | bitOr | bitXor => exact eq_of_digits fun place => (h place).trans (h' place).symm
  | shiftRight =>
    have hpos : (0 : Int) < 2 ^ b.toNat := by positivity
    have hlt := lt_of_le_of_lt h.2.1 h'.2.2
    have hlt' := lt_of_le_of_lt h'.2.1 h.2.2
    have hle := lt_of_mul_lt_mul_right hlt hpos.le
    have hle' := lt_of_mul_lt_mul_right hlt' hpos.le
    omega

lemma Makes.ne_zero (h : Makes op a b r) (ho : op ∈ [.floorDiv, .mod]) : b ≠ 0 := by
  have hrests : ∃ rest, Rests b rest := by
    simp only [List.mem_cons, List.not_mem_nil, or_false] at ho
    obtain rfl | rfl := ho
    · exact h.imp fun _ => And.right
    · obtain ⟨_, _, hr⟩ := h
      exact ⟨_, hr⟩
  obtain ⟨rest, hr⟩ := hrests
  unfold Rests at hr
  omega

lemma Makes.nonneg (h : Makes op a b r) (ho : op ∈ [.shiftLeft, .shiftRight]) : 0 ≤ b := by
  simp only [List.mem_cons, List.not_mem_nil, or_false] at ho
  obtain rfl | rfl := ho <;> exact h.1

/-- A sum or a difference. -/
lemma ends_bounded (hr : Makes op a b r) (hs : Oversize op a b ↔ maxBits < bitLength r) :
    Ends op a b .int (Number.bounded op r) := by
  unfold Number.bounded
  split
  · next h => exact .tooLarge (hs.mpr h)
  · next h => exact .made rfl rfl hr fun h' => h (hs.mp h')

/-- A quotient or a remainder. -/
lemma ends_division (ho : op ∈ [.floorDiv, .mod]) (hs : ¬Oversize op a b)
    (hr : b ≠ 0 → Makes op a b r) :
    Ends op a b .int (if b == 0 then .error .divisionByZero else .ok (.int r)) := by
  split
  · next h => exact .divisionByZero ho (beq_iff_eq.mp h)
  · next h => exact .made rfl rfl (hr fun hb => h (beq_iff_eq.mpr hb)) hs

lemma ends_product (a b : Int) : Ends .mult a b .int (Number.product a b) := by
  unfold Number.product
  split
  · next h => exact .tooLarge h
  · next h => exact .made rfl rfl rfl h

lemma ends_power (a : Int) (hb : 0 ≤ b) : Ends .pow a b .int (Number.power a b) := by
  unfold Number.power
  rw [if_neg (by omega)]
  have hcast : ((Nat.pow 2 32 : Nat) : Int) = 2 ^ 32 := Int.natCast_pow 2 32
  split
  · next h =>
    obtain ⟨hexponent, hsize⟩ : b < 2 ^ 32 ∧ bitLength a * b.toNat ≤ maxBits := by
      simpa [hcast] using h
    refine .made rfl rfl ⟨hb, power_eq a b.toNat⟩ ?_
    rintro (h | h)
    · exact absurd h (not_le.mpr hexponent)
    · exact absurd h (not_lt.mpr hsize)
  · next h =>
    refine .tooLarge ?_
    by_contra hs
    obtain ⟨hexponent, hsize⟩ := not_or.mp hs
    exact h (by simpa [hcast] using ⟨not_le.mp hexponent, not_lt.mp hsize⟩)

lemma ends_shiftLeft (a b : Int) : Ends .shiftLeft a b .int (Number.shiftLeft a b) := by
  unfold Number.shiftLeft
  split
  · next hb => exact .negativeShift (by decide) hb
  · next hb =>
    split
    · next hs => exact .tooLarge ⟨not_lt.mp hb, hs⟩
    · next hs =>
      refine .made rfl rfl ⟨not_lt.mp hb, ?_⟩ fun h => hs h.2
      exact congrArg (a * ·) (Int.natCast_pow 2 b.toNat)

lemma ends_shiftRight (a b : Int) : Ends .shiftRight a b .int (Number.shiftRight a b) := by
  unfold Number.shiftRight
  split
  · next hb => exact .negativeShift (by decide) hb
  · next hb =>
    have hpos : (0 : Int) < 2 ^ b.toNat := by positivity
    rw [shiftRight_eq]
    refine .made rfl rfl ⟨not_lt.mp hb, ?_, ?_⟩ id
    · exact Int.ediv_mul_le a hpos.ne'
    · exact Int.lt_ediv_add_one_mul_self a hpos

/-- An operation on integers ends in one of the ways. -/
theorem intBinary_ends (a : Int) (ho : op ∉ [.div, .matMult]) (hb : op = .pow → 0 ≤ b) :
    Ends op a b .int (Number.intBinary op a b) := by
  cases op with
  | add | sub => exact ends_bounded rfl Iff.rfl
  | mult => exact ends_product a b
  | pow => exact ends_power a (hb rfl)
  | shiftLeft => exact ends_shiftLeft a b
  | shiftRight => exact ends_shiftRight a b
  | bitAnd => exact .made rfl rfl (digit_bitAnd a b) id
  | bitOr => exact .made rfl rfl (digit_bitOr a b) id
  | bitXor => exact .made rfl rfl (digit_bitXor a b) id
  | div | matMult => exact absurd (by decide) ho
  | floorDiv =>
    exact ends_division (by decide) id fun hne =>
      ⟨a.fmod b, (Int.mul_fdiv_add_fmod a b).symm, rests_fmod a hne⟩
  | mod =>
    exact ends_division (by decide) id fun hne =>
      ⟨a.fdiv b, (Int.mul_fdiv_add_fmod a b).symm, rests_fmod a hne⟩

/-- The operators that give a truth value on two of them. -/
def bitwise : List BinaryOp := [.bitAnd, .bitOr, .bitXor]

/-- The kind of what an operator gives on truth values and integers. -/
def resultKind (op : BinaryOp) (v w : Value) : Kind :=
  if v.kind = .bool ∧ w.kind = .bool ∧ op ∈ bitwise then .bool else .int

variable {v w u : Value}

/-- A truth value or an integer is known by its kind and number. -/
lemma eq_of_kind_number {u' : Value} (hk : u.kind = u'.kind) (hu : u.asInt? = some r)
    (hu' : u'.asInt? = some r) : u = u' := by
  have hsame : u.asInt? = u'.asInt? := hu.trans hu'.symm
  cases u with
  | bool p =>
    cases u' with
    | bool q => cases p <;> cases q <;> first | rfl | cases hsame
    | _ => cases hk
  | int m =>
    cases u' with
    | int n => exact congrArg Value.int (Option.some.inj hsame)
    | _ => cases hk
  | _ => cases hu

lemma binary_truth (ho : op ∈ bitwise) (p q : Bool) (ha : (Value.bool p).asInt? = some a)
    (hb : (Value.bool q).asInt? = some b) :
    Ends op a b .bool ((Value.bool p).binary op (.bool q)) := by
  cases ha
  cases hb
  simp only [bitwise, List.mem_cons, List.not_mem_nil, or_false] at ho
  obtain rfl | rfl | rfl := ho <;>
  · refine .made rfl rfl (fun place => ?_) id
    simp only [digit_truth]
    cases p <;> cases q <;> cases decide (place = 0) <;> rfl

lemma binary_number (hv : v.asInt? = some a) (hw : w.asInt? = some b)
    (h : ¬(v.kind = .bool ∧ w.kind = .bool ∧ op ∈ bitwise)) :
    v.binary op w = Number.intBinary op a b := by
  cases v with
  | bool p =>
    cases hv
    cases w with
    | bool q =>
      cases hw
      cases op <;> first | rfl | exact absurd ⟨rfl, rfl, by decide⟩ h
    | int n => cases hw; cases op <;> rfl
    | _ => cases hw
  | int m =>
    cases hv
    cases w with
    | bool q => cases hw; cases op <;> rfl
    | int n => cases hw; cases op <;> rfl
    | _ => cases hw
  | _ => cases hv

/-- An operation on truth values and integers ends in one of the ways. -/
theorem binary_ends (ho : op ∉ [.div, .matMult]) (hv : v.asInt? = some a)
    (hw : w.asInt? = some b) (hb : op = .pow → 0 ≤ b) :
    Ends op a b (resultKind op v w) (v.binary op w) := by
  unfold resultKind
  split
  · next h =>
    obtain ⟨hkv, hkw, hop⟩ := h
    cases v with
    | bool p =>
      cases w with
      | bool q => exact binary_truth hop p q hv hw
      | _ => cases hkw
    | _ => cases hkv
  · next h =>
    rw [binary_number hv hw h]
    exact intBinary_ends a ho hb

/-- What comes of an operation on truth values and integers, and when it fails. -/
lemma numbers_exact (ho : op ∉ [.div, .matMult]) (hv : v.asInt? = some a)
    (hw : w.asInt? = some b) (hb : op = .pow → 0 ≤ b) :
    (∀ u, v.binary op w = .ok u ↔ u.kind = resultKind op v w ∧
      (∃ r, u.asInt? = some r ∧ Makes op a b r) ∧ ¬Oversize op a b) ∧
    (v.binary op w = .error .divisionByZero ↔ op ∈ [.floorDiv, .mod] ∧ b = 0) ∧
    (v.binary op w = .error (.invalid .negativeShift) ↔
      op ∈ [.shiftLeft, .shiftRight] ∧ b < 0) ∧
    (v.binary op w = .error (.tooLarge (.binary op)) ↔ Oversize op a b) ∧
    ∀ e, v.binary op w = .error e →
      e ∈ [.divisionByZero, .invalid .negativeShift, .tooLarge (.binary op)] := by
  have hsmall : op ∈ [.floorDiv, .mod] → ¬Oversize op a b := by
    intro h
    simp only [List.mem_cons, List.not_mem_nil, or_false] at h
    obtain rfl | rfl := h <;> exact id
  have hforward : op ∈ [.shiftLeft, .shiftRight] → Oversize op a b → 0 ≤ b := by
    intro h hs
    simp only [List.mem_cons, List.not_mem_nil, or_false] at h
    obtain rfl | rfl := h
    · exact hs.1
    · exact hs.elim
  have hends := binary_ends ho hv hw hb
  generalize v.binary op w = x at hends
  cases hends with
  | @made u r hk hu h hs =>
    refine ⟨fun u' => ⟨?_, ?_⟩, ?_, ?_, ?_, ?_⟩
    · rintro ⟨⟩
      exact ⟨hk, ⟨r, hu, h⟩, hs⟩
    · rintro ⟨hk', ⟨r', hu', h'⟩, -⟩
      obtain rfl := h.unique h'
      exact congrArg Except.ok (eq_of_kind_number (hk.trans hk'.symm) hu hu')
    · exact ⟨nofun, fun hzero => absurd hzero.2 (h.ne_zero hzero.1)⟩
    · exact ⟨nofun, fun hneg => absurd hneg.2 (h.nonneg hneg.1).not_gt⟩
    · exact ⟨nofun, fun hs' => absurd hs' hs⟩
    · exact nofun
  | tooLarge hs =>
    refine ⟨fun u' => ⟨nofun, fun h => absurd hs h.2.2⟩, ⟨nofun, ?_⟩, ⟨nofun, ?_⟩, ?_, ?_⟩
    · exact fun hzero => absurd hs (hsmall hzero.1)
    · exact fun hneg => absurd hneg.2 (hforward hneg.1 hs).not_gt
    · exact ⟨fun _ => hs, fun _ => rfl⟩
    · rintro e ⟨⟩
      simp
  | divisionByZero hop hzero =>
    refine ⟨fun u' => ⟨nofun, ?_⟩, ⟨fun _ => ⟨hop, hzero⟩, fun _ => rfl⟩, ⟨nofun, ?_⟩, ⟨nofun, ?_⟩,
      ?_⟩
    · rintro ⟨-, ⟨r, -, h⟩, -⟩
      exact absurd hzero (h.ne_zero hop)
    · exact fun hneg => absurd hneg.2 (by omega)
    · exact fun hs => absurd hs (hsmall hop)
    · rintro e ⟨⟩
      simp
  | negativeShift hop hneg =>
    refine ⟨fun u' => ⟨nofun, ?_⟩, ⟨nofun, ?_⟩, ⟨fun _ => ⟨hop, hneg⟩, fun _ => rfl⟩, ⟨nofun, ?_⟩,
      ?_⟩
    · rintro ⟨-, ⟨r, -, h⟩, -⟩
      exact absurd hneg (h.nonneg hop).not_gt
    · exact fun hzero => absurd hzero.2 (by omega)
    · exact fun hs => absurd hneg (hforward hop hs).not_gt
    · rintro e ⟨⟩
      simp

/-- How long a sequence is: in octets of UTF-8 for text. -/
def extent : Value → Nat
  | .str s => s.utf8ByteSize
  | .bytes o => o.length
  | .list items => items.length
  | _ => 0

/-- Two sequences of a kind, and the one of both in a row. -/
inductive Joined : Value → Value → Value → Prop where
  | str (s t : String) : Joined (.str s) (.str t) (.str (s ++ t))
  | bytes (o p : Bytes) : Joined (.bytes o) (.bytes p) (.bytes (o ++ p))
  | list (items others : List Value) : Joined (.list items) (.list others) (.list (items ++ others))

/-- A sequence that is so many copies of another in a row. No copies are what changes nothing where
it is joined. -/
inductive Repeated (v : Value) : Nat → Value → Prop where
  | none {r : Value} (h : Joined r v v) : Repeated v 0 r
  | next {n : Nat} {r r' : Value} (h : Repeated v n r) (hj : Joined r v r') : Repeated v (n + 1) r'

lemma Joined.extent_eq {v w u : Value} (h : Joined v w u) : extent u = extent v + extent w := by
  cases h with
  | str s t => exact String.utf8ByteSize_append
  | bytes | list => exact List.length_append

lemma Repeated.extent_eq {v u : Value} {n : Nat} (h : Repeated v n u) :
    extent u = extent v * n := by
  induction h with
  | none h =>
    have hextent := h.extent_eq
    omega
  | next h hj ih =>
    rw [hj.extent_eq, ih, Nat.mul_succ]

lemma copies_zero {α : Type} (items : List α) : Value.copies 0 items = [] := by
  unfold Value.copies
  split <;> rfl

lemma copies_succ {α : Type} (n : Nat) (items : List α) :
    Value.copies (n + 1) items = Value.copies n items ++ items := by
  unfold Value.copies
  split
  · next h => simp [List.isEmpty_iff.mp h]
  · rw [List.replicate_succ', List.flatten_append, List.flatten_singleton]

/-- Copies of elements are copies of the sequence that they make up. -/
lemma repeated_copies {α : Type} (make : List α → Value)
    (hmake : ∀ items others, Joined (make items) (make others) (make (items ++ others)))
    (items : List α) (n : Nat) : Repeated (make items) n (make (Value.copies n items)) := by
  induction n with
  | zero =>
    rw [copies_zero]
    exact .none (hmake [] items)
  | succ n ih =>
    rw [copies_succ]
    exact .next ih (hmake _ items)

lemma joined_ofList (cs ds : List Char) :
    Joined (.str (String.ofList cs)) (.str (String.ofList ds))
      (.str (String.ofList (cs ++ ds))) := by
  rw [String.ofList_append]
  exact .str _ _

lemma repeated_exact {c : Value} {n : Int} (hv : v.isSequence = true) (hc : c.asInt? = some n) :
    ∃ u, Repeated v n.toNat u ∧ v.repeated? c = some (if maxLength < extent u then
      .error (.tooLarge (.binary .mult)) else .ok u) := by
  cases v with
  | str s =>
    have hcopies :=
      repeated_copies (fun cs => .str (String.ofList cs)) joined_ofList s.toList n.toNat
    simp only [String.ofList_toList] at hcopies
    refine ⟨_, hcopies, ?_⟩
    rw [hcopies.extent_eq, Value.repeated?, hc]
    rfl
  | bytes o =>
    have hcopies := repeated_copies Value.bytes Joined.bytes o n.toNat
    refine ⟨_, hcopies, ?_⟩
    rw [hcopies.extent_eq, Value.repeated?, hc]
    rfl
  | list items =>
    have hcopies := repeated_copies Value.list Joined.list items n.toNat
    refine ⟨_, hcopies, ?_⟩
    rw [hcopies.extent_eq, Value.repeated?, hc]
    rfl
  | _ => cases hv

lemma joined_exact (h : Joined v w u) : v.binary .add w =
    if maxLength < extent u then .error (.tooLarge (.binary .add)) else .ok u := by
  rw [h.extent_eq]
  cases h <;> rfl

lemma not_isSequence {c : Value} {n : Int} (hc : c.asInt? = some n) : c.isSequence = false := by
  cases c with
  | bool | int => rfl
  | _ => cases hc

/-- On truth values and integers the operators other than `/` and `@` are exact, powers with a
negative exponent aside; `+` on two sequences of a kind joins them, and `*` on a sequence and a
number repeats it. Each result is given unless it is refused, and a sequence is refused by its own
length. -/
theorem binary_exact :
    (∀ {op : BinaryOp} {v w : Value} {a b : Int}, op ∉ [.div, .matMult] →
      v.asInt? = some a → w.asInt? = some b → (op = .pow → 0 ≤ b) →
      (∀ u, v.binary op w = .ok u ↔ u.kind = resultKind op v w ∧
        (∃ r, u.asInt? = some r ∧ Makes op a b r) ∧ ¬Oversize op a b) ∧
      (v.binary op w = .error .divisionByZero ↔ op ∈ [.floorDiv, .mod] ∧ b = 0) ∧
      (v.binary op w = .error (.invalid .negativeShift) ↔
        op ∈ [.shiftLeft, .shiftRight] ∧ b < 0) ∧
      (v.binary op w = .error (.tooLarge (.binary op)) ↔ Oversize op a b) ∧
      ∀ e, v.binary op w = .error e →
        e ∈ [.divisionByZero, .invalid .negativeShift, .tooLarge (.binary op)]) ∧
    (∀ {v w u : Value}, Joined v w u → v.binary .add w =
      if maxLength < extent u then .error (.tooLarge (.binary .add)) else .ok u) ∧
    (∀ {v c : Value} {n : Int}, v.isSequence = true → c.asInt? = some n →
      ∃ u, Repeated v n.toNat u ∧
        v.binary .mult c =
          (if maxLength < extent u then .error (.tooLarge (.binary .mult)) else .ok u) ∧
        c.binary .mult v =
          if maxLength < extent u then .error (.tooLarge (.binary .mult)) else .ok u) := by
  refine ⟨numbers_exact, joined_exact, fun {v c n} hv hc => ?_⟩
  obtain ⟨u, hu, hresult⟩ := repeated_exact hv hc
  refine ⟨u, hu, ?_, ?_⟩
  · simp [Value.binary, hv, hresult]
  · simp [Value.binary, hv, not_isSequence hc, hresult]

theorem binary_exact_cube : BinaryOp.pow ∉ [.div, .matMult] ∧
    (Value.int (-3)).asInt? = some (-3) ∧ (Value.int 3).asInt? = some 3 ∧
    (Value.int (-3)).binary .pow (.int 3) = .ok (.int (-27)) ∧
    Joined (.str "é") (.str "é") (.str "éé") ∧
    (Value.str "é").binary .add (.str "é") = .ok (.str "éé") ∧
    (Value.str "é").isSequence = true ∧ (Value.bool true).asInt? = some 1 ∧
    ∃ u, Repeated (.str "é") 1 u ∧ (Value.bool true).binary .mult (.str "é") =
      if maxLength < extent u then .error (.tooLarge (.binary .mult)) else .ok u := by
  have hsize : ¬Oversize .pow (-3) 3 := by
    rintro (h | h)
    · exact absurd h (by decide)
    · exact absurd h (by decide)
  have hpow : BinaryOp.pow ∉ [.div, .matMult] := by decide
  have hcube := binary_exact.1 (v := .int (-3)) (w := .int 3) hpow rfl rfl fun _ => by decide
  refine ⟨hpow, rfl, rfl, ?_, .str "é" "é", ?_, rfl, rfl, ?_⟩
  · exact (hcube.1 (.int (-27))).mpr ⟨rfl, ⟨-27, rfl, by decide, by decide⟩, hsize⟩
  · exact (binary_exact.2.1 (.str "é" "é")).trans (if_neg (by decide))
  · obtain ⟨u, hu, -, hresult⟩ :=
      binary_exact.2.2 (v := .str "é") (c := .bool true) rfl rfl
    exact ⟨u, hu, hresult⟩

end Arithmetic
end Unmask
