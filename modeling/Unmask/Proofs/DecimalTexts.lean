import Mathlib.Algebra.Order.Field.Basic
import Mathlib.Data.List.DropRight
import Mathlib.Data.Rat.Defs
import Mathlib.Tactic.FieldSimp
import Mathlib.Tactic.Ring
import Unmask.Decimal
import Unmask.Proofs.Words

/-!
# Texts of decimals

A numeral is a sign perhaps, digits, more digits behind a point perhaps, and an exponent perhaps,
and it denotes a rational number. A text is taken apart in one way only, so that it denotes one
number at most. Digits and an exponent are laid out as a numeral that denotes `± d.ddd · 10 ^ e`,
whatever the digits and the exponent are: with digits on both sides of a point for exponents from
-4 to 15, and as one digit with a fraction perhaps and an exponent otherwise. The digits of a double
begin with zero only if it is zero.
-/
namespace Unmask.Decimal
open Text

/-- Decimal digits, at least one. -/
structure Digits (cs : List Char) : Prop where
  ne_nil : cs ≠ []
  all : ∀ c ∈ cs, isAsciiDigit c = true

lemma digitsValue_append (as bs : List Char) :
    digitsValue (as ++ bs) = digitsValue as * 10 ^ bs.length + digitsValue bs := by
  simp only [digitsValue_eq]
  rw [Nat.ofDigitChars_append, Nat.ofDigitChars_eq_ofDigitChars_zero, Nat.mul_comm]

@[simp] lemma digitsValue_zeros (k : Nat) : digitsValue (zeros k) = 0 := by
  rw [digitsValue_eq, zeros, Nat.ofDigitChars_replicate_zero, Nat.mul_zero]

lemma digitsValue_zeros_append (k : Nat) (cs : List Char) :
    digitsValue (zeros k ++ cs) = digitsValue cs := by
  rw [digitsValue_append, digitsValue_zeros, Nat.zero_mul, Nat.zero_add]

lemma digitsValue_append_zeros (cs : List Char) (k : Nat) :
    digitsValue (cs ++ zeros k) = digitsValue cs * 10 ^ k := by
  rw [digitsValue_append, digitsValue_zeros, Nat.add_zero, zeros, List.length_replicate]

lemma isAsciiDigit_zeros (k : Nat) : ∀ c ∈ zeros k, isAsciiDigit c = true := by
  intro c hc
  rw [List.eq_of_mem_replicate hc]
  rfl

lemma all_append {as bs : List Char} (ha : ∀ c ∈ as, isAsciiDigit c = true)
    (hb : ∀ c ∈ bs, isAsciiDigit c = true) : ∀ c ∈ as ++ bs, isAsciiDigit c = true :=
  fun c hc => (List.mem_append.mp hc).elim (ha c) (hb c)

/-- The exponent is written with its digits, two at least. -/
lemma digits_twoDigits (n : Nat) :
    Digits (twoDigits n) ∧ 2 ≤ (twoDigits n).length ∧ digitsValue (twoDigits n) = n := by
  have hall : ∀ c ∈ digitChars n, isAsciiDigit c = true := fun c hc => isAsciiDigit_of_mem hc
  have hlength : 2 ≤ (twoDigits n).length := by
    simp only [twoDigits, zeros, List.length_append, List.length_replicate]
    omega
  refine ⟨⟨?_, all_append (isAsciiDigit_zeros _) hall⟩, hlength, ?_⟩
  · rintro hnil
    rw [hnil] at hlength
    contradiction
  · exact (digitsValue_zeros_append _ _).trans (digitsValue_digitChars n)

/-- A decimal as it is written. There is no point if the fraction is empty; an exponent is written
with its sign, here whether it is a minus, and its digits. -/
structure Numeral where
  negative : Bool
  whole : List Char
  fraction : List Char
  scale? : Option (Bool × List Char)

/-- A number with its sign. -/
def signed (negative : Bool) (q : ℚ) : ℚ := if negative then -q else q

/-- A minus in front of what is negative. -/
def minus (negative : Bool) : List Char := if negative then ['-'] else []

namespace Numeral

structure WellFormed (n : Numeral) : Prop where
  whole : Digits n.whole
  fraction : ∀ c ∈ n.fraction, isAsciiDigit c = true
  scale : ∀ s ∈ n.scale?, Digits s.2

/-- A fraction behind its point. -/
def pointed : List Char → List Char
  | [] => []
  | c :: cs => '.' :: c :: cs

/-- An exponent behind its mark. -/
def marked : Option (Bool × List Char) → List Char
  | none => []
  | some (negative, digits) => 'e' :: (if negative then '-' else '+') :: digits

def text (n : Numeral) : List Char :=
  minus n.negative ++ (n.whole ++ (pointed n.fraction ++ marked n.scale?))

def exponent (n : Numeral) : Int :=
  match n.scale? with
  | none => 0
  | some (negative, digits) => if negative then -(digitsValue digits : Int) else digitsValue digits

/-- The number that a numeral denotes. -/
def value (n : Numeral) : ℚ :=
  signed n.negative
    ((digitsValue n.whole + digitsValue n.fraction / 10 ^ n.fraction.length) * 10 ^ n.exponent)

/-- A numeral with digits on both sides of a point and no exponent. -/
structure IsFixed (n : Numeral) : Prop where
  whole : n.whole ≠ []
  fraction : n.fraction ≠ []
  scale : n.scale? = none

/-- A numeral with one digit, a fraction perhaps, and an exponent of two digits at least. -/
structure IsExponential (n : Numeral) : Prop where
  whole : n.whole.length = 1
  scale : ∃ negative digits, n.scale? = some (negative, digits) ∧ 2 ≤ digits.length

section Front

variable {as as' rest rest' : List Char}

lemma takeWhile_digits (ha : ∀ c ∈ as, isAsciiDigit c = true)
    (hrest : ∀ c ∈ rest.head?, isAsciiDigit c = false) :
    (as ++ rest).takeWhile isAsciiDigit = as := by
  rw [List.takeWhile_append_of_pos ha]
  cases rest with
  | nil => simp
  | cons c rest => simp [hrest c rfl]

lemma dropWhile_digits (ha : ∀ c ∈ as, isAsciiDigit c = true)
    (hrest : ∀ c ∈ rest.head?, isAsciiDigit c = false) :
    (as ++ rest).dropWhile isAsciiDigit = rest := by
  rw [List.dropWhile_append_of_pos ha]
  cases rest with
  | nil => rfl
  | cons c rest => simp [hrest c rfl]

lemma append_inj_of_digits (ha : ∀ c ∈ as, isAsciiDigit c = true)
    (ha' : ∀ c ∈ as', isAsciiDigit c = true) (hrest : ∀ c ∈ rest.head?, isAsciiDigit c = false)
    (hrest' : ∀ c ∈ rest'.head?, isAsciiDigit c = false) (h : as ++ rest = as' ++ rest') :
    as = as' ∧ rest = rest' := by
  constructor
  · rw [← takeWhile_digits ha hrest, h, takeWhile_digits ha' hrest']
  · rw [← dropWhile_digits ha hrest, h, dropWhile_digits ha' hrest']

end Front

lemma marked_head (s : Option (Bool × List Char)) :
    ∀ c ∈ (marked s).head?, isAsciiDigit c = false := by
  cases s with
  | none => nofun
  | some s =>
    rintro c ⟨⟩
    rfl

lemma tail_head (cs : List Char) (s : Option (Bool × List Char)) :
    ∀ c ∈ (pointed cs ++ marked s).head?, isAsciiDigit c = false := by
  cases cs with
  | nil => exact marked_head s
  | cons =>
    rintro c ⟨⟩
    rfl

lemma marked_inj {s s' : Option (Bool × List Char)} (h : marked s = marked s') : s = s' := by
  cases s with
  | none =>
    cases s' with
    | none => rfl
    | some => contradiction
  | some s =>
    cases s' with
    | none => contradiction
    | some s' =>
      obtain ⟨negative, digits⟩ := s
      obtain ⟨negative', digits'⟩ := s'
      simp only [marked, List.cons.injEq, true_and] at h
      obtain ⟨hsign, rfl⟩ := h
      cases negative <;> cases negative' <;> simp_all

lemma tail_inj {cs cs' : List Char} {s s' : Option (Bool × List Char)}
    (hcs : ∀ c ∈ cs, isAsciiDigit c = true) (hcs' : ∀ c ∈ cs', isAsciiDigit c = true)
    (h : pointed cs ++ marked s = pointed cs' ++ marked s') : cs = cs' ∧ s = s' := by
  cases cs with
  | nil =>
    cases cs' with
    | nil => exact ⟨rfl, marked_inj h⟩
    | cons =>
      cases s with
      | none => contradiction
      | some => simp [pointed, marked] at h
  | cons c cs =>
    cases cs' with
    | nil =>
      cases s' with
      | none => contradiction
      | some => simp [pointed, marked] at h
    | cons c' cs' =>
      obtain ⟨hdigits, hmarked⟩ := append_inj_of_digits hcs hcs' (marked_head s) (marked_head s')
        (List.cons.inj h).2
      exact ⟨hdigits, marked_inj hmarked⟩

lemma minus_inj {negative negative' : Bool} {cs cs' : List Char} (hcs : cs.head? ≠ some '-')
    (hcs' : cs'.head? ≠ some '-') (h : minus negative ++ cs = minus negative' ++ cs') :
    negative = negative' ∧ cs = cs' := by
  cases negative <;> cases negative'
  · exact ⟨rfl, h⟩
  · have hhead := congrArg List.head? h
    exact absurd hhead hcs
  · have hhead := congrArg List.head? h
    exact absurd hhead.symm hcs'
  · exact ⟨rfl, (List.cons.inj h).2⟩

lemma head?_append_ne_minus {cs rest : List Char} (h : Digits cs) :
    (cs ++ rest).head? ≠ some '-' := by
  obtain ⟨c, cs, rfl⟩ := List.exists_cons_of_ne_nil h.ne_nil
  rintro ⟨⟩
  have := h.all '-' List.mem_cons_self
  contradiction

/-- A text is the text of one numeral at most. -/
lemma text_inj {n n' : Numeral} (h : n.WellFormed) (h' : n'.WellFormed) (htext : n.text = n'.text) :
    n = n' := by
  obtain ⟨hnegative, hrest⟩ := minus_inj (head?_append_ne_minus h.whole)
    (head?_append_ne_minus h'.whole) htext
  obtain ⟨hwhole, htail⟩ := append_inj_of_digits h.whole.all h'.whole.all (tail_head _ _)
    (tail_head _ _) hrest
  obtain ⟨hfraction, hscale⟩ := tail_inj h.fraction h'.fraction htail
  cases n
  cases n'
  simp_all

lemma readExponent_signed (negative : Bool) {digits : List Char} (h : Digits digits) :
    readExponent ((if negative then '-' else '+') :: digits) =
      some (if negative then -(digitsValue digits : Int) else digitsValue digits) := by
  have hread : (digits.isEmpty || !digits.all isAsciiDigit) = false := by
    simpa [h.ne_nil] using h.all
  cases negative <;> simp [readExponent, hread]

/-- The reader takes a numeral apart into its digits and a power of ten. -/
lemma readMagnitude_text {n : Numeral} (h : n.WellFormed) :
    readMagnitude (n.whole ++ (pointed n.fraction ++ marked n.scale?)) =
      some (nearest (n.whole ++ n.fraction) (n.exponent - n.fraction.length)) := by
  obtain ⟨negative, whole, fraction, scale?⟩ := n
  have hwhole : whole.isEmpty = false := by simpa using h.whole.ne_nil
  unfold readMagnitude
  simp only [takeWhile_digits h.whole.all (tail_head _ _),
    dropWhile_digits h.whole.all (tail_head _ _), hwhole, Bool.false_and]
  cases fraction with
  | nil =>
    cases scale? with
    | none => rfl
    | some s =>
      have hscale := readExponent_signed s.1 (h.scale s rfl)
      simp [pointed, marked, exponent, hscale]
  | cons c cs =>
    have hfront := takeWhile_digits h.fraction (marked_head scale?)
    have hback := dropWhile_digits h.fraction (marked_head scale?)
    simp only [pointed, List.cons_append] at hfront hback ⊢
    simp only [hfront, hback]
    cases scale? with
    | none => rfl
    | some s =>
      have hscale := readExponent_signed s.1 (h.scale s rfl)
      simp [marked, exponent, hscale]

/-- What begins with a digit is no word. -/
lemma not_word_of_digit {c : Char} (hc : isAsciiDigit c = true) (cs : List Char) :
    let word := String.ofList ((c :: cs).map asciiLower)
    (word == "inf" || word == "infinity") = false ∧ (word == "nan") = false := by
  have hall : ∀ c ∈ asciiDigits, asciiLower c ≠ 'i' ∧ asciiLower c ≠ 'n' := by decide
  obtain ⟨hi, hn⟩ := hall c (mem_asciiDigits hc)
  have hne {d : Char} (hd : asciiLower c ≠ d) (ds : List Char) :
      (String.ofList ((c :: cs).map asciiLower) == String.ofList (d :: ds)) = false := by
    rw [beq_eq_false_iff_ne]
    exact fun heq => hd (List.cons.inj (String.ofList_inj.mp heq)).1
  refine ⟨?_, hne hn ['a', 'n']⟩
  rw [Bool.or_eq_false_iff]
  exact ⟨hne hi ['n', 'f'], hne hi "nfinity".toList⟩

/-- A numeral is read as the double nearest to its digits times its power of ten. -/
lemma readFloat_text {n : Numeral} (h : n.WellFormed) :
    readFloat n.text = some
      (let x := nearest (n.whole ++ n.fraction) (n.exponent - n.fraction.length)
        if n.negative then -x else x) := by
  have hread := readMagnitude_text h
  obtain ⟨c, cs, hcs⟩ := List.exists_cons_of_ne_nil h.whole.ne_nil
  have hc : isAsciiDigit c = true := h.whole.all c (hcs ▸ List.mem_cons_self)
  have hsign : ∀ c ∈ asciiDigits, c ≠ '-' ∧ c ≠ '+' := by decide
  obtain ⟨hminus, hplus⟩ := hsign c (mem_asciiDigits hc)
  rw [text]
  generalize hrest : n.whole ++ (pointed n.fraction ++ marked n.scale?) = rest at hread ⊢
  obtain ⟨tail, rfl⟩ : ∃ tail, rest = c :: tail := ⟨_, by rw [← hrest, hcs]; rfl⟩
  obtain ⟨hinf, hnan⟩ := not_word_of_digit hc tail
  unfold readFloat
  cases n.negative <;>
    simp [minus, hinf, hnan, hread, hminus, hplus, -List.map_cons, -Bool.or_eq_true]

end Numeral

/-- The number `± d.ddd · 10 ^ e` with the given digits. -/
def number (negative : Bool) (digits : List Char) (e : Int) : ℚ :=
  signed negative (digitsValue digits * 10 ^ (e - digits.length + 1))

namespace Numeral

variable {digits : List Char}

/-- A numeral denotes a number if its digits are those of the number with zeros behind them, as many
as its power of ten is smaller. -/
lemma value_eq {n : Numeral} {e : Int} (k : Nat)
    (hdigits : digitsValue (n.whole ++ n.fraction) = digitsValue digits * 10 ^ k)
    (hpower : n.exponent - n.fraction.length + k = e - digits.length + 1) :
    n.value = number n.negative digits e := by
  have hten : (10 : ℚ) ≠ 0 := by norm_num
  have hvalue : (digitsValue n.whole : ℚ) + digitsValue n.fraction / 10 ^ n.fraction.length =
      digitsValue digits * 10 ^ k / 10 ^ n.fraction.length := by
    have hcast : (digitsValue n.whole : ℚ) * 10 ^ n.fraction.length + digitsValue n.fraction =
        digitsValue digits * 10 ^ k := by
      rw [digitsValue_append] at hdigits
      exact_mod_cast hdigits
    rw [← hcast]
    field_simp
  rw [value, number, hvalue, ← hpower, zpow_add₀ hten, zpow_sub₀ hten, zpow_natCast, zpow_natCast]
  congr 1
  ring

/-- A numeral writes the number `± d.ddd · 10 ^ e`. -/
structure Writes (n : Numeral) (negative : Bool) (digits : List Char) (e : Int) : Prop where
  wellFormed : n.WellFormed
  sign : n.negative = negative
  value : n.value = number negative digits e

lemma pointed_of_ne_nil {cs : List Char} (h : cs ≠ []) : pointed cs = '.' :: cs := by
  cases cs with
  | nil => contradiction
  | cons => rfl

/-- Digits around a point are a numeral. -/
lemma text_fixed (negative : Bool) {whole fraction : List Char} (h : fraction ≠ []) :
    text ⟨negative, whole, fraction, none⟩ = minus negative ++ (whole ++ '.' :: fraction) := by
  rw [text, pointed_of_ne_nil h, marked, List.append_nil]

/-- In positional notation a number is written with digits on both sides of a point. -/
lemma exists_positional (h : Digits digits) (negative : Bool) (e : Int) :
    ∃ n : Numeral, n.text = minus negative ++ positional digits e ∧
      n.Writes negative digits e ∧ n.IsFixed := by
  have hlength : 0 < digits.length := List.length_pos_of_ne_nil h.ne_nil
  have hzero : Digits (zeros 1) := ⟨by decide, isAsciiDigit_zeros 1⟩
  by_cases hneg : e < 0
  -- The point is in front of the digits, behind them and their zeros, or among them.
  · have hfraction : zeros (e.natAbs - 1) ++ digits ≠ [] := by simp [h.ne_nil]
    have hall := all_append (isAsciiDigit_zeros (e.natAbs - 1)) h.all
    refine ⟨⟨negative, zeros 1, zeros (e.natAbs - 1) ++ digits, none⟩, ?_,
      ⟨⟨hzero, hall, nofun⟩, rfl, value_eq 0 ?_ ?_⟩, hzero.ne_nil, hfraction, rfl⟩
    · rw [text_fixed _ hfraction, positional, if_pos hneg]
      rfl
    · rw [digitsValue_zeros_append, digitsValue_zeros_append, Nat.pow_zero, Nat.mul_one]
    · simp only [exponent, zeros, List.length_append, List.length_replicate]
      omega
  · by_cases hshort : digits.length ≤ e.natAbs + 1
    · have hwhole : digits ++ zeros (e.natAbs + 1 - digits.length) ≠ [] := by simp [h.ne_nil]
      have hall := all_append h.all (isAsciiDigit_zeros (e.natAbs + 1 - digits.length))
      refine ⟨⟨negative, digits ++ zeros (e.natAbs + 1 - digits.length), zeros 1, none⟩, ?_,
        ⟨⟨⟨hwhole, hall⟩, hzero.all, nofun⟩, rfl,
          value_eq (e.natAbs + 1 - digits.length + 1) ?_ ?_⟩, hwhole, hzero.ne_nil, rfl⟩
      · rw [text_fixed _ hzero.ne_nil, positional, if_neg hneg]
        dsimp only
        rw [if_pos hshort]
        rfl
      · rw [digitsValue_append_zeros, digitsValue_append_zeros, Nat.mul_assoc, ← Nat.pow_add]
      · simp only [exponent, zeros, List.length_replicate]
        omega
    · have hwhole : digits.take (e.natAbs + 1) ≠ [] := by
        simp [List.take_eq_nil_iff, h.ne_nil]
      have hfraction : digits.drop (e.natAbs + 1) ≠ [] := by
        simpa [List.drop_eq_nil_iff] using hshort
      refine ⟨⟨negative, digits.take (e.natAbs + 1), digits.drop (e.natAbs + 1), none⟩, ?_,
        ⟨⟨⟨hwhole, fun c hc => h.all c (List.mem_of_mem_take hc)⟩,
          fun c hc => h.all c (List.mem_of_mem_drop hc), nofun⟩, rfl, value_eq 0 ?_ ?_⟩,
        hwhole, hfraction, rfl⟩
      · rw [text_fixed _ hfraction, positional, if_neg hneg]
        dsimp only
        rw [if_neg hshort]
      · rw [List.take_append_drop, Nat.pow_zero, Nat.mul_one]
      · simp only [exponent, List.length_drop]
        omega

/-- In notation with an exponent a number is written with its first digit in front of the point. -/
lemma exists_exponential (h : Digits digits) (negative : Bool) (e : Int) :
    ∃ n : Numeral, n.text = minus negative ++ exponential digits e ∧
      n.Writes negative digits e ∧ n.IsExponential ∧
      n.whole ++ n.fraction = digits ∧ n.exponent = e := by
  obtain ⟨hscale, htwo, hvalue⟩ := digits_twoDigits e.natAbs
  have hlength : 0 < digits.length := List.length_pos_of_ne_nil h.ne_nil
  have hwhole : digits.take 1 ≠ [] := by simp [List.take_eq_nil_iff, h.ne_nil]
  have hexponent : exponent ⟨negative, digits.take 1, digits.drop 1,
      some (decide (e < 0), twoDigits e.natAbs)⟩ = e := by
    simp only [exponent, hvalue, decide_eq_true_eq]
    omega
  refine ⟨⟨negative, digits.take 1, digits.drop 1, some (decide (e < 0), twoDigits e.natAbs)⟩, ?_,
    ⟨⟨⟨hwhole, fun c hc => h.all c (List.mem_of_mem_take hc)⟩,
      fun c hc => h.all c (List.mem_of_mem_drop hc), ?_⟩, rfl, value_eq 0 ?_ ?_⟩,
    ⟨?_, _, _, rfl, htwo⟩, List.take_append_drop 1 digits, hexponent⟩
  · have hlayout : exponential digits e = digits.take 1 ++ (pointed (digits.drop 1) ++
        'e' :: (if e < 0 then '-' else '+') :: twoDigits e.natAbs) := by
      unfold exponential
      cases digits.drop 1 <;> simp [pointed]
    have hsign : (if decide (e < 0) then '-' else '+') = if e < 0 then '-' else '+' := by
      simp only [decide_eq_true_eq]
    rw [text, marked, hlayout, hsign]
  · rintro s ⟨⟩
    exact hscale
  · rw [List.take_append_drop, Nat.pow_zero, Nat.mul_one]
  · rw [hexponent, List.length_drop]
    omega
  · rw [List.length_take]
    omega

lemma IsFixed.not_isExponential {n : Numeral} (h : n.IsFixed) : ¬ n.IsExponential := by
  rintro ⟨-, negative, digits, hscale, -⟩
  rw [h.scale] at hscale
  contradiction

end Numeral

/-- A text lays digits and an exponent out: it is the text of one numeral, which denotes the number
`± d.ddd · 10 ^ e` and is read as such; it has digits on both sides of a point for exponents from
-4 to 15, and else the first digit in front of its fraction, and the exponent. -/
def LaysOut (text : List Char) (negative : Bool) (digits : List Char) (e : Int) : Prop :=
  ∃ n : Numeral, (∀ n' : Numeral, n'.WellFormed ∧ n'.text = text ↔ n' = n) ∧
    n.negative = negative ∧ n.value = number negative digits e ∧
    (n.IsFixed ↔ -4 ≤ e ∧ e < 16) ∧ (n.IsExponential ↔ ¬ (-4 ≤ e ∧ e < 16)) ∧
    (n.IsExponential → n.whole ++ n.fraction = digits ∧ n.exponent = e) ∧
    readFloat text = some
      (let x := nearest (n.whole ++ n.fraction) (n.exponent - n.fraction.length)
        if negative then -x else x)

/-- A text is that of one numeral. -/
lemma Numeral.unique {n : Numeral} (h : n.WellFormed) (n' : Numeral) :
    n'.WellFormed ∧ n'.text = n.text ↔ n' = n := by
  constructor
  · exact fun ⟨h', htext⟩ => text_inj h' h htext
  · rintro rfl
    exact ⟨h, rfl⟩

theorem layout_laysOut {digits : List Char} (h : Digits digits) (negative : Bool) (e : Int) :
    LaysOut (layout negative digits e) negative digits e := by
  by_cases hfixed : -4 ≤ e ∧ e < 16
  · have hlayout : layout negative digits e = minus negative ++ positional digits e := by
      simp [layout, minus, hfixed]
    obtain ⟨n, htext, hwrites, hn⟩ := Numeral.exists_positional h negative e
    have hread := Numeral.readFloat_text hwrites.wellFormed
    rw [htext, hwrites.sign] at hread
    rw [hlayout]
    refine ⟨n, ?_, hwrites.sign, hwrites.value, iff_of_true hn hfixed,
      iff_of_false hn.not_isExponential (not_not.mpr hfixed),
      fun hn' => absurd hn' hn.not_isExponential, hread⟩
    rw [← htext]
    exact Numeral.unique hwrites.wellFormed
  · have hlayout : layout negative digits e = minus negative ++ exponential digits e := by
      simp [layout, minus, hfixed]
    obtain ⟨n, htext, hwrites, hn, hdigits, hexponent⟩ := Numeral.exists_exponential h negative e
    have hread := Numeral.readFloat_text hwrites.wellFormed
    rw [htext, hwrites.sign] at hread
    rw [hlayout]
    refine ⟨n, ?_, hwrites.sign, hwrites.value, iff_of_false (·.not_isExponential hn) hfixed,
      iff_of_true hn hfixed, fun _ => ⟨hdigits, hexponent⟩, hread⟩
    rw [← htext]
    exact Numeral.unique hwrites.wellFormed

/-- Without the zeros behind them the digits of a positive number begin as they did. -/
lemma kept_digits {n : Nat} {kept : List Char}
    (hkept : kept = ((digitChars n).reverse.dropWhile (· == '0')).reverse) (hne : kept ≠ []) :
    Digits kept ∧ kept.head? ≠ some '0' := by
  have hfront : kept <+: digitChars n := hkept ▸ List.rdropWhile_prefix (· == '0') _
  refine ⟨⟨hne, fun c hc => isAsciiDigit_of_mem (hfront.subset hc)⟩, ?_⟩
  obtain ⟨zeros, hzeros⟩ := hfront
  obtain ⟨c, cs, rfl⟩ := List.exists_cons_of_ne_nil hne
  have hhead : (c :: cs).head? = (digitChars n).head? := by rw [← hzeros]; rfl
  rw [hhead]
  refine head?_digitChars (Nat.pos_of_ne_zero ?_)
  rintro rfl
  exact hne hkept

/-- The digits of a count of units begin with zero only if that is all there is. -/
lemma digits_ofUnits (n : Nat) (e : Int) :
    Digits (Scientific.ofUnits n e).digits ∧
      ((Scientific.ofUnits n e).digits.head? = some '0' →
        (Scientific.ofUnits n e).digits = ['0']) := by
  unfold Scientific.ofUnits
  dsimp only
  split
  · exact ⟨⟨by decide, by decide⟩, fun _ => rfl⟩
  · next hne =>
    obtain ⟨hdigits, hhead⟩ := kept_digits rfl (by simpa [digitChars] using hne)
    exact ⟨hdigits, fun h => absurd h hhead⟩

lemma digits_ofFloat (x : Float) :
    Digits (Scientific.ofFloat x).digits ∧
      ((Scientific.ofFloat x).digits.head? = some '0' →
        (Scientific.ofFloat x).digits = ['0']) := by
  unfold Scientific.ofFloat
  dsimp only
  split
  · exact ⟨⟨by decide, by decide⟩, fun _ => rfl⟩
  · exact digits_ofUnits _ _

/-- The text of a finite double. -/
lemma floatText_finite {x : Float} (hnan : x.isNaN = false) (hinf : x.isInf = false) :
    (floatText x).toList =
      layout (isNegative x) (Scientific.ofFloat x).digits (Scientific.ofFloat x).exponent := by
  rw [floatText, hnan, hinf]
  exact String.toList_ofList

/-- Digits and an exponent are laid out as the number that they are, whatever they are. So is the
shortest decimal of every finite double, with the sign of the double; its digits begin with zero
only if there is no other. -/
theorem floatText_laysOut :
    (∀ (negative : Bool) (digits : List Char) (e : Int), Digits digits →
      LaysOut (layout negative digits e) negative digits e) ∧
    ∀ x : Float, x.isNaN = false → x.isInf = false →
      let d := Scientific.ofFloat x
      Digits d.digits ∧ (d.digits.head? = some '0' → d.digits = ['0']) ∧
        LaysOut (floatText x).toList (isNegative x) d.digits d.exponent := by
  refine ⟨fun negative digits e h => layout_laysOut h negative e, fun x hnan hinf => ?_⟩
  obtain ⟨hdigits, hhead⟩ := digits_ofFloat x
  refine ⟨hdigits, hhead, ?_⟩
  rw [floatText_finite hnan hinf]
  exact layout_laysOut hdigits _ _

/-- Digits on both sides of the switch to an exponent, and one tenth below zero. -/
theorem floatText_negative_tenth :
    LaysOut "1234567890123456.0".toList false "1234567890123456".toList 15 ∧
    LaysOut "1.2e+16".toList false "12".toList 16 ∧
    (-0.1 : Float).isNaN = false ∧ (-0.1 : Float).isInf = false ∧
    LaysOut "-0.1".toList true "1".toList (-1) := by
  obtain ⟨hlayout, hdouble⟩ := floatText_laysOut
  have hlong : layout false "1234567890123456".toList 15 = "1234567890123456.0".toList := by decide
  have hshort : layout false "12".toList 16 = "1.2e+16".toList := by decide
  have hnan : (-0.1 : Float).isNaN = false := by decide +kernel
  have hinf : (-0.1 : Float).isInf = false := by decide +kernel
  have htext : floatText (-0.1) = "-0.1" := by decide +kernel
  have hsign : isNegative (-0.1) = true := by decide +kernel
  have hdigits : Scientific.ofFloat (-0.1) = ⟨"1".toList, -1⟩ := by decide +kernel
  obtain ⟨-, -, htenth⟩ := hdouble (-0.1) hnan hinf
  rw [htext, hsign, hdigits] at htenth
  exact ⟨hlong ▸ hlayout false _ 15 ⟨by decide, by decide⟩,
    hshort ▸ hlayout false _ 16 ⟨by decide, by decide⟩, hnan, hinf, htenth⟩

end Unmask.Decimal
