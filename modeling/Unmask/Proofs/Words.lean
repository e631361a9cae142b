import Mathlib.Data.List.TakeWhile
import Mathlib.Tactic.IntervalCases
import Mathlib.Tactic.Lemma
import Unmask.Proofs.Gaps
import Unmask.Syntax.Token

/-!
# Words and numbers in front of other text

A word and a decimal number end where a character stands that neither of them can go on with. Behind
a literal that is written these are blanks, brackets, commas and colons.
-/
namespace Unmask
open Text Literal

/-- The characters that may stand behind an expression. -/
def followers : List Char := [' ', '\n', ',', ')', ']', '\x7d', ':', '(', '[']

/-- What follows belongs to nothing before it. -/
def Apart (tail : List Char) : Prop := ∀ c ∈ tail.head?, c ∈ followers

namespace Apart

variable {tail : List Char}

lemma nil : Apart [] := nofun

lemma cons {c : Char} (h : c ∈ followers) (cs : List Char) : Apart (c :: cs) := by
  rintro _ ⟨⟩
  exact h

/-- What may follow is no part of a word or number and no quote. -/
lemma not_continue (h : Apart tail) : ∀ c ∈ tail.head?, isIdentifierContinue c = false := by
  have hall : ∀ c ∈ followers, isIdentifierContinue c = false := by decide
  exact fun c hc => hall c (h c hc)

lemma not_quote (h : Apart tail) : ∀ c ∈ tail.head?, (isQuote c || c == '`') = false := by
  have hall : ∀ c ∈ followers, (isQuote c || c == '`') = false := by decide
  exact fun c hc => hall c (h c hc)

lemma not_letter (h : Apart tail) : ∀ c ∈ tail.head?, Token.isPrefixLetter c = false := by
  have hall : ∀ c ∈ followers, Token.isPrefixLetter c = false := by decide
  exact fun c hc => hall c (h c hc)

end Apart

def asciiDigits : List Char := ['0', '1', '2', '3', '4', '5', '6', '7', '8', '9']

lemma mem_asciiDigits {c : Char} (h : isAsciiDigit c) : c ∈ asciiDigits := by
  simp only [isAsciiDigit, Bool.and_eq_true, decide_eq_true_eq] at h
  have hlow : 48 ≤ c.toNat := h.1
  have hhigh : c.toNat ≤ 57 := h.2
  rw [← Char.ofNat_toNat c]
  interval_cases c.toNat <;> decide

lemma not_digit_of_start {c : Char} (h : isIdentifierStart c) : isAsciiDigit c = false := by
  have hall : ∀ d ∈ asciiDigits, isIdentifierStart d = false := by decide
  rw [Bool.eq_false_iff]
  intro hdigit
  rw [hall c (mem_asciiDigits hdigit)] at h
  contradiction

namespace Token

/-- A row of characters that is one word. -/
lemma word_eq_self_iff {cs : List Char} : word cs = cs ↔
    cs = [] ∨
      ∃ c rest, cs = c :: rest ∧ isIdentifierStart c ∧ ∀ d ∈ rest, isIdentifierContinue d := by
  cases cs with
  | nil => simp [word]
  | cons c rest =>
    by_cases hc : isIdentifierStart c
    · simp [word, hc, List.takeWhile_eq_self_iff]
    · simp [word, hc]

/-- A word ends where no character follows that it could go on with. -/
lemma word_append {cs tail : List Char} (hcs : word cs = cs) (hne : cs ≠ [])
    (htail : ∀ c ∈ tail.head?, isIdentifierContinue c = false) : word (cs ++ tail) = cs := by
  obtain rfl | ⟨c, rest, rfl, hc, hrest⟩ := word_eq_self_iff.mp hcs
  · contradiction
  · have hstop : tail.takeWhile isIdentifierContinue = [] := by
      cases tail with
      | nil => rfl
      | cons d tail =>
        rw [List.takeWhile_cons, htail d rfl]
        rfl
    rw [List.cons_append, word, if_pos hc, List.takeWhile_append_of_pos hrest, hstop,
      List.append_nil]

/-- No symbol begins with a character of none of them. -/
lemma symbol_nil {c : Char} (h : ∀ s ∈ symbols, s.head? ≠ some c) (cs : List Char) :
    symbol (c :: cs) = [] := by
  have hnone : symbols.find? (startsWith · (c :: cs)) = none := by
    rw [List.find?_eq_none]
    intro s hs hstarts
    obtain ⟨rest, hrest⟩ := Option.isSome_iff_exists.mp hstarts
    have hsplit := afterFront?_eq_some_iff.mp hrest
    cases s with
    | nil => exact absurd hs (by decide)
    | cons d s =>
      refine h _ hs ?_
      rw [List.cons_append] at hsplit
      rw [List.head?_cons, (List.cons.inj hsplit).1]
  rw [symbol, hnone]
  rfl

lemma symbol_nil_of_start {c : Char} (h : isIdentifierStart c) (cs : List Char) :
    symbol (c :: cs) = [] := by
  have hall : ∀ s ∈ symbols, ∀ d ∈ s.head?, isIdentifierStart d = false := by decide
  refine symbol_nil (fun s hs hhead => ?_) cs
  rw [hall s hs c hhead] at h
  contradiction

/-- A symbol that stands in front of no `=`, `*` or `>` is not the beginning of a longer one. -/
lemma symbol_append {s : List Char} {d : Char}
    (hs : s ∈ ["**", "*", "-", "+", "~", ":", "=", "@"].map String.toList)
    (hd : d ∉ ['=', '*', '>']) (rest : List Char) : symbol (s ++ d :: rest) = s := by
  simp only [List.mem_cons, List.not_mem_nil, or_false, not_or] at hd
  obtain ⟨heq, hstar, hgreater⟩ := hd
  simp only [List.map_cons, List.map_nil, List.mem_cons, List.not_mem_nil, or_false] at hs
  rcases hs with rfl | rfl | rfl | rfl | rfl | rfl | rfl | rfl <;>
    simp [symbol, symbols, startsWith, afterFront?, List.find?, Ne.symm heq, Ne.symm hstar,
      Ne.symm hgreater]

/-- A number begins with a digit or a point. -/
lemma number?_none {c : Char} (hdigit : isAsciiDigit c = false) (hdot : c ≠ '.')
    (cs : List Char) : number? (c :: cs) = none := by
  have hzero : c ≠ '0' := by
    rintro rfl
    contradiction
  have hradix : radixLength? (c :: cs) = none := by
    unfold radixLength?
    split
    · next heq => exact absurd (List.cons.inj heq).1 hzero
    · rfl
  have hwhole : digitsLength true (c :: cs) = 0 := by simp [digitsLength, hdigit]
  rw [number?, hradix]
  simp only [hwhole, List.drop_zero]
  split
  · next heq => exact absurd (List.cons.inj heq).1 hdot
  · rfl

/-- A string literal begins with letters of its kind and a quote. -/
lemma stringStart?_none {cs tail : List Char} (hcs : ∀ c ∈ cs, (isQuote c || c == '`') = false)
    (htail : ∀ c ∈ tail.head?, (isQuote c || c == '`') = false)
    (hletters : ∀ c ∈ tail.head?, isPrefixLetter c = false) : stringStart? (cs ++ tail) = none := by
  have hnone (q : Char) (rest : List Char) (h : (cs ++ tail).dropWhile isPrefixLetter = q :: rest) :
      (isQuote q || q == '`') = false := by
    induction cs with
    | nil =>
      cases tail with
      | nil => cases h
      | cons d tail =>
        rw [List.nil_append, List.dropWhile_cons, hletters d rfl] at h
        obtain ⟨rfl, -⟩ := List.cons.inj h
        exact htail _ rfl
    | cons c cs ih =>
      rw [List.cons_append, List.dropWhile_cons] at h
      split at h
      · exact ih (fun d hd => hcs d (List.mem_cons_of_mem _ hd)) h
      · obtain ⟨rfl, -⟩ := List.cons.inj h
        exact hcs _ List.mem_cons_self
  unfold stringStart?
  dsimp only
  split
  · next q rest heq => rw [if_neg (by simp [hnone q rest heq])]
  · rfl

end Token

/-- The digits of a number. -/
def digitChars (n : Nat) : List Char := Nat.toDigits 10 n

lemma digitChar_mem {d : Nat} (h : d < 10) : d.digitChar ∈ asciiDigits := by
  interval_cases d <;> decide

lemma digitChars_ne_nil (n : Nat) : digitChars n ≠ [] := Nat.toDigits_ne_nil

lemma mem_digitChars (n : Nat) : ∀ c ∈ digitChars n, c ∈ asciiDigits := by
  induction n using Nat.strongRecOn with
  | ind n ih =>
    unfold digitChars at ih ⊢
    by_cases h : n < 10
    · rw [Nat.toDigits_of_lt_base h]
      intro c hc
      rw [List.mem_singleton.mp hc]
      exact digitChar_mem h
    · rw [Nat.toDigits_of_base_le (by decide) (Nat.le_of_not_lt h)]
      intro c hc
      rcases List.mem_append.mp hc with hc | hc
      · exact ih (n / 10) (by omega) c hc
      · rw [List.mem_singleton.mp hc]
        exact digitChar_mem (Nat.mod_lt n (by decide))

lemma isAsciiDigit_of_mem {n : Nat} {c : Char} (h : c ∈ digitChars n) : isAsciiDigit c := by
  have hall : ∀ c ∈ asciiDigits, isAsciiDigit c := by decide
  exact hall c (mem_digitChars n c h)

/-- The number that digits denote is the one that is counted in them. -/
lemma digitsValue_eq (digits : List Char) :
    Decimal.digitsValue digits = Nat.ofDigitChars 10 digits 0 := by
  unfold Decimal.digitsValue Nat.ofDigitChars
  congr 1
  funext n c
  rw [Nat.mul_comm]

lemma digitsValue_digitChars (n : Nat) : Decimal.digitsValue (digitChars n) = n := by
  rw [digitsValue_eq, digitChars, Nat.ofDigitChars_ten_toDigits]

/-- Only the number zero begins with the digit zero. -/
lemma head?_digitChars {n : Nat} (hn : 0 < n) : (digitChars n).head? ≠ some '0' := by
  have hdigit : ∀ d < 10, 0 < d → d.digitChar ≠ '0' := by decide
  induction n using Nat.strongRecOn with
  | ind n ih =>
    unfold digitChars at ih ⊢
    by_cases h : n < 10
    · rw [Nat.toDigits_of_lt_base h, List.head?_cons]
      exact fun heq => hdigit n h hn (Option.some.inj heq)
    · rw [Nat.toDigits_of_base_le (by decide) (Nat.le_of_not_lt h),
        List.head?_append, Option.or_of_isSome (List.isSome_head?.mpr Nat.toDigits_ne_nil)]
      exact ih (n / 10) (by omega) (by omega)

lemma digits?_append (digits : List Char) (hne : digits ≠ []) (c : Char) :
    digits? 10 (digits ++ [c]) = (digits? 10 digits).bind fun n =>
      (hexDigit? c).bind fun d => if d < 10 then some (n * 10 + d) else none := by
  simp [digits?, hne, List.foldl_append]

lemma hexDigit?_digit {d : Nat} (h : d < 10) : hexDigit? d.digitChar = some d := by
  interval_cases d <;> rfl

lemma digits?_digitChars (n : Nat) : digits? 10 (digitChars n) = some n := by
  induction n using Nat.strongRecOn with
  | ind n ih =>
    unfold digitChars at ih ⊢
    by_cases h : n < 10
    · rw [Nat.toDigits_of_lt_base h]
      simp [digits?, hexDigit?_digit h, h]
    · have hmod : n % 10 < 10 := Nat.mod_lt n (by decide)
      rw [Nat.toDigits_of_base_le (by decide) (Nat.le_of_not_lt h),
        digits?_append _ Nat.toDigits_ne_nil, ih (n / 10) (by omega), Option.bind_some,
        hexDigit?_digit hmod, Option.bind_some, if_pos hmod]
      exact congrArg some (Nat.div_add_mod' n 10)

/-- The digits of a number are read as the number. -/
lemma int?_digitChars (n : Nat) : int? (digitChars n) = some (n : Int) := by
  have hplain : ((digitChars n).filter (· != '_')).map asciiLower = digitChars n := by
    have hall : ∀ c ∈ asciiDigits, (c != '_') = true ∧ asciiLower c = c := by decide
    have hfilter : (digitChars n).filter (· != '_') = digitChars n :=
      List.filter_eq_self.mpr fun c hc => (hall c (mem_digitChars n c hc)).1
    rw [hfilter, List.map_congr_left fun c hc => (hall c (mem_digitChars n c hc)).2, List.map_id']
  unfold int?
  simp only [hplain]
  rcases Nat.eq_zero_or_pos n with rfl | hn
  · rfl
  · have hhead := head?_digitChars hn
    split
    · next heq => exact absurd (by rw [heq]; rfl) hhead
    · next heq => exact absurd (by rw [heq]; rfl) hhead
    · next heq => exact absurd (by rw [heq]; rfl) hhead
    · next heq => exact absurd (by rw [heq]; rfl) hhead
    · rw [digits?_digitChars]
      rfl

namespace Token

variable {tail : List Char}

lemma digitsLength_append {digits : List Char} (hdigits : ∀ c ∈ digits, isAsciiDigit c)
    (htail : ∀ c ∈ tail.head?, isAsciiDigit c = false ∧ c ≠ '_') (mark : Bool) :
    digitsLength mark (digits ++ tail) = digits.length := by
  induction digits generalizing mark with
  | nil =>
    cases tail with
    | nil => rfl
    | cons c tail =>
      obtain ⟨hdigit, hmark⟩ := htail c rfl
      simp [digitsLength, hdigit, hmark]
  | cons c digits ih =>
    rw [List.cons_append, digitsLength, if_pos (hdigits c List.mem_cons_self),
      ih (fun d hd => hdigits d (List.mem_cons_of_mem _ hd)), List.length_cons]

lemma radixLength?_digitChars (n : Nat) (htail : Apart tail) :
    radixLength? (digitChars n ++ tail) = none := by
  rcases Nat.eq_zero_or_pos n with rfl | hn
  · have hall : ∀ c ∈ followers, c ≠ 'x' ∧ c ≠ 'X' ∧ c ≠ 'o' ∧ c ≠ 'O' ∧ c ≠ 'b' ∧ c ≠ 'B' := by
      decide
    show radixLength? ('0' :: tail) = none
    cases tail with
    | nil => rfl
    | cons c tail =>
      simp [radixLength?, hall c (htail c rfl)]
  · obtain ⟨c, rest, hcons⟩ := List.exists_cons_of_ne_nil (digitChars_ne_nil n)
    have hhead := head?_digitChars hn
    rw [hcons] at hhead ⊢
    unfold radixLength?
    split
    · next heq => exact absurd (congrArg some (List.cons.inj heq).1) hhead
    · rfl

/-- The digits of a number are one number that is no float. -/
lemma number?_digitChars (n : Nat) (htail : Apart tail) :
    number? (digitChars n ++ tail) = some ((digitChars n).length, false) := by
  have hall : ∀ c ∈ followers, isAsciiDigit c = false ∧ c ≠ '_' ∧ c ≠ '.' ∧ c ≠ 'e' ∧ c ≠ 'E' ∧
      ['l', 'L', 'j', 'J'].contains c = false := by decide
  have hdigits : ∀ c ∈ asciiDigits, isAsciiDigit c := by decide
  have hwhole : digitsLength true (digitChars n ++ tail) = (digitChars n).length :=
    digitsLength_append (fun c hc => hdigits c (mem_digitChars n c hc))
      (fun c hc => ⟨(hall c (htail c hc)).1, (hall c (htail c hc)).2.1⟩) true
  have hlength : (digitChars n).length ≠ 0 := fun h =>
    digitChars_ne_nil n (List.length_eq_zero_iff.mp h)
  have hexponent : exponentLength tail = 0 := by
    cases tail with
    | nil => rfl
    | cons c tail => simp [exponentLength, hall c (htail c rfl)]
  have hsuffix : withSuffix ['l', 'L', 'j', 'J'] (digitChars n ++ tail) (digitChars n).length =
      (digitChars n).length := by
    rw [withSuffix, List.drop_left]
    cases tail with
    | nil => rfl
    | cons c tail => simp only [hall c (htail c rfl), Bool.false_eq_true, if_false]
  rw [number?, radixLength?_digitChars n htail]
  simp only [hwhole, List.drop_left]
  split
  · exact absurd rfl (hall '.' (htail '.' rfl)).2.2.1
  · rw [if_neg (by simp [hlength]), hexponent]
    simp only [hsuffix]

end Token
end Unmask
