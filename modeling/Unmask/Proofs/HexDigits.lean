import Unmask.Disguise.BlankObf.Folding
import Unmask.Mock.Call
import Unmask.Proofs.TextOctets

/-!
# Hexadecimal digits, read twice

Octets are written as two digits each, in letters of either case. The function that programs call to
read them is known in two places: as a mock, which reads digits and nothing else, and as a decoder
of constants, which leaves out blanks first. The two agree as long as there is no blank to leave
out, or what is left cannot be read either.
-/
namespace Unmask.Hex

open Text.Utf8 (forall_octet)

def lowerDigits : Bytes := Text.Utf8.encode "0123456789abcdef"

def upperDigits : Bytes := Text.Utf8.encode "0123456789ABCDEF"

/-- An octet is a digit of so much, in either case. -/
def IsDigit (o : UInt8) (n : Nat) : Prop := lowerDigits[n]? = some o ∨ upperDigits[n]? = some o

instance (o : UInt8) (n : Nat) : Decidable (IsDigit o n) :=
  inferInstanceAs (Decidable (lowerDigits[n]? = some o ∨ upperDigits[n]? = some o))

/-- Digits in pairs, and the octets that they denote. -/
inductive Denotes : Bytes → Bytes → Prop where
  | nil : Denotes [] []
  | cons {x y o : UInt8} (hx : IsDigit x (o.toNat / 16)) (hy : IsDigit y (o.toNat % 16))
      {digits octets : Bytes} (h : Denotes digits octets) :
      Denotes (x :: y :: digits) (o :: octets)

variable {o x y high low : UInt8} {digits octets : Bytes} {n : Nat}

lemma IsDigit.lt (h : IsDigit o n) : n < 16 := by
  have hlength : lowerDigits.length = 16 ∧ upperDigits.length = 16 := by decide +kernel
  obtain h | h := h
  · exact hlength.1 ▸ (List.getElem?_eq_some_iff.mp h).1
  · exact hlength.2 ▸ (List.getElem?_eq_some_iff.mp h).1

lemma digit?_eq_some_iff : digit? o = some x ↔ IsDigit o x.toNat := by
  constructor
  · have hall : ∀ o, ∀ v ∈ digit? o, IsDigit o v.toNat := forall_octet (by decide +kernel)
    exact hall o x
  · intro h
    have hlower : ∀ n < 16, ∀ o ∈ lowerDigits[n]?, digit? o = some (.ofNat n) := by decide +kernel
    have hupper : ∀ n < 16, ∀ o ∈ upperDigits[n]?, digit? o = some (.ofNat n) := by decide +kernel
    have hlt := h.lt
    rw [← UInt8.ofNat_toNat (x := x)]
    obtain h | h := h
    · exact hlower x.toNat hlt o h
    · exact hupper x.toNat hlt o h

/-- A pair of digits is an octet if the first one is its upper half and the second one its lower
half. -/
lemma pair_eq_iff (hhigh : high.toNat < 16) (hlow : low.toNat < 16) :
    high * 16 + low = o ↔ high.toNat = o.toNat / 16 ∧ low.toNat = o.toNat % 16 := by
  have ho := o.toNat_lt
  have hsixteen : (16 : UInt8).toNat = 16 := rfl
  rw [← UInt8.toNat_inj, UInt8.toNat_add, UInt8.toNat_mul, hsixteen]
  omega

/-- What is read are the octets that the digits denote. -/
theorem decode?_eq_some_iff : decode? digits = some octets ↔ Denotes digits octets := by
  unfold decode?
  constructor
  · intro h
    fun_induction decodePairs? digit? digits generalizing octets with
    | case1 =>
      cases h
      exact .nil
    | case2 => contradiction
    | case3 x y rest high low bytes hbytes hlow hhigh ih =>
      cases h
      have hx := digit?_eq_some_iff.mp hhigh
      have hy := digit?_eq_some_iff.mp hlow
      obtain ⟨hupper, hlower⟩ := (pair_eq_iff hx.lt hy.lt).mp rfl
      exact .cons (hupper ▸ hx) (hlower ▸ hy) (ih hbytes)
    | case4 => contradiction
  · intro h
    induction h with
    | nil => rfl
    | @cons x y o hx hy digits octets _ ih =>
      have ho := o.toNat_lt
      obtain ⟨high, hhigh⟩ := Text.Utf8.exists_octet (n := o.toNat / 16) (by omega)
      obtain ⟨low, hlow⟩ := Text.Utf8.exists_octet (n := o.toNat % 16) (by omega)
      have hpair := (pair_eq_iff (hhigh ▸ hx.lt) (hlow ▸ hy.lt)).mpr ⟨hhigh, hlow⟩
      rw [← hhigh] at hx
      rw [← hlow] at hy
      rw [decodePairs?, digit?_eq_some_iff.mpr hx, digit?_eq_some_iff.mpr hy, ih, ← hpair]

/-- What has a meaning is made of digits. -/
lemma Denotes.isDigit (h : Denotes digits octets) : ∀ o ∈ digits, ∃ n, IsDigit o n := by
  induction h with
  | nil => exact fun _ ho => absurd ho List.not_mem_nil
  | cons hx hy _ ih =>
    intro o ho
    rcases List.mem_cons.mp ho with rfl | ho
    · exact ⟨_, hx⟩
    · rcases List.mem_cons.mp ho with rfl | ho
      · exact ⟨_, hy⟩
      · exact ih o ho

/-- A blank is no digit. -/
lemma isAsciiBlank_of_isDigit (h : IsDigit o n) : isAsciiBlank o = false := by
  have hall : ∀ o, (digit? o).isSome → isAsciiBlank o = false := forall_octet (by decide +kernel)
  obtain ⟨x, rfl⟩ := Text.Utf8.exists_octet (Nat.lt_trans h.lt (by decide))
  exact hall o (Option.isSome_of_eq_some (digit?_eq_some_iff.mpr h))

/-- The octets without the blanks among them. -/
def unspaced (digits : Bytes) : Bytes := digits.filter (!isAsciiBlank ·)

/-- No blank is among the octets. -/
def Unspaced (digits : Bytes) : Prop := ∀ o ∈ digits, isAsciiBlank o = false

/-- The mock of octets. -/
def mockOf (octets : Bytes) : Mock := .value Kind.bytes.name (.bytes octets)

/-- What the function gives for octets, as a mock. -/
def called (digits : Bytes) : Except MockError (Option Mock) :=
  (Mock.builtin .unhexlify).call ⟨[mockOf digits], []⟩

/-- What the function becomes on a literal, as a decoder of constants. -/
def folded (digits : Bytes) : Option Expr :=
  BlankObf.reduceCall? (.attribute (.name "binascii") Builtin.unhexlify.name) [.bytes digits]

/-- The two readings give the same octets, and refuse together. -/
structure Agree (digits : Bytes) : Prop where
  given : ∀ octets, called digits = .ok (some (mockOf octets)) ↔ decodeSpaced digits = .ok octets
  refused : (∃ e, called digits = .error e) ↔ ∃ e, decodeSpaced digits = .error e

lemma called_eq (digits : Bytes) : called digits =
    match decode? digits with
    | some octets => .ok (some (mockOf octets))
    | none => .error (.evaluation (.invalid .notHexadecimal)) := by
  have hcall : called digits =
      (match decode? digits with
        | some octets => Mock.ofValue (.bytes octets)
        | none => .error (.evaluation (.invalid .notHexadecimal))).map some := rfl
  rw [hcall]
  cases decode? digits <;> rfl

lemma decodeSpaced_eq (digits : Bytes) : decodeSpaced digits =
    match decode? (unspaced digits) with
    | some octets => .ok octets
    | none => .error .hex := by
  rw [decodeSpaced, unspaced]
  cases decode? (digits.filter (!isAsciiBlank ·)) <;> rfl

lemma called_eq_ok_iff :
    called digits = .ok (some (mockOf octets)) ↔ Denotes digits octets := by
  rw [called_eq, ← decode?_eq_some_iff]
  cases decode? digits <;> simp [mockOf]

lemma called_refused_iff :
    (∃ e, called digits = .error e) ↔ ∀ octets, ¬Denotes digits octets := by
  simp only [called_eq, ← decode?_eq_some_iff]
  cases decode? digits <;> simp

lemma decodeSpaced_eq_ok_iff :
    decodeSpaced digits = .ok octets ↔ Denotes (unspaced digits) octets := by
  rw [decodeSpaced_eq, ← decode?_eq_some_iff]
  cases decode? (unspaced digits) <;> simp

lemma decodeSpaced_refused_iff :
    (∃ e, decodeSpaced digits = .error e) ↔ ∀ octets, ¬Denotes (unspaced digits) octets := by
  simp only [decodeSpaced_eq, ← decode?_eq_some_iff]
  cases decode? (unspaced digits) <;> simp

lemma folded_eq (digits : Bytes) : folded digits = (decodeSpaced digits).toOption.map .bytes := by
  have hlookup : BlankObf.decoders.lookup ("binascii", Builtin.unhexlify.name) =
      some decodeSpaced := rfl
  have hdata : Value.ofExpr? (.bytes digits) = some (.bytes digits) := rfl
  have hcall : folded digits =
      BlankObf.decodeCall? "binascii" Builtin.unhexlify.name (.bytes digits) := rfl
  rw [hcall, BlankObf.decodeCall?, hlookup, hdata]
  simp only [Option.bind_eq_bind, Option.bind_some, BlankObf.encoded?]
  cases decodeSpaced digits <;> rfl

lemma folded_eq_some_iff :
    folded digits = some (.bytes octets) ↔ decodeSpaced digits = .ok octets := by
  rw [folded_eq]
  cases decodeSpaced digits <;> simp [Except.toOption, Expr.bytes]

lemma Denotes.unspaced (h : Denotes digits octets) : Unspaced digits := by
  intro o ho
  obtain ⟨n, hn⟩ := h.isDigit o ho
  exact isAsciiBlank_of_isDigit hn

lemma Unspaced.eq (h : Unspaced digits) : unspaced digits = digits :=
  List.filter_eq_self.mpr fun o ho => by rw [h o ho, Bool.not_false]

/-- The mock gives the octets that the digits denote and the decoder those that the digits without
blanks denote. They agree just when there are no blanks or neither has anything to give. -/
theorem unhexlify_agree_iff (digits : Bytes) :
    (∀ octets, called digits = .ok (some (mockOf octets)) ↔ Denotes digits octets) ∧
      (∀ octets, folded digits = some (.bytes octets) ↔ decodeSpaced digits = .ok octets) ∧
      (∀ octets, decodeSpaced digits = .ok octets ↔ Denotes (unspaced digits) octets) ∧
      (Agree digits ↔ Unspaced digits ∨ ∀ octets, ¬Denotes (unspaced digits) octets) := by
  refine ⟨fun _ => called_eq_ok_iff, fun _ => folded_eq_some_iff, fun _ => decodeSpaced_eq_ok_iff,
    fun h => ?_, fun h => ?_⟩
  · by_cases hspaced : Unspaced digits
    · exact .inl hspaced
    · refine .inr fun octets hoctets => hspaced ?_
      have hcalled := (h.given octets).mpr (decodeSpaced_eq_ok_iff.mpr hoctets)
      exact (called_eq_ok_iff.mp hcalled).unspaced
  · -- What one of the readings gives has no blanks, if only because nothing is given.
    have hiff (octets : Bytes) : Denotes digits octets ↔ Denotes (unspaced digits) octets := by
      obtain h | h := h
      · rw [h.eq]
      · refine ⟨fun hoctets => ?_, fun hoctets => absurd hoctets (h octets)⟩
        rwa [hoctets.unspaced.eq]
    refine ⟨fun octets => ?_, ?_⟩
    · rw [called_eq_ok_iff, decodeSpaced_eq_ok_iff, hiff]
    · simp only [called_refused_iff, decodeSpaced_refused_iff, hiff]

/-- Digits with a blank between two pairs: the decoder reads them and the mock does not. -/
theorem unhexlify_spaced_differs :
    let digits := Text.Utf8.encode "61 62"
    decodeSpaced digits = .ok [0x61, 0x62] ∧
      called digits = .error (.evaluation (.invalid .notHexadecimal)) ∧ ¬Agree digits := by
  have hread : decodeSpaced (Text.Utf8.encode "61 62") = .ok [0x61, 0x62] := by rfl
  have hrefused : called (Text.Utf8.encode "61 62") =
      .error (.evaluation (.invalid .notHexadecimal)) := by rfl
  refine ⟨hread, hrefused, fun h => ?_⟩
  have hcalled := (h.given _).mpr hread
  rw [hrefused] at hcalled
  contradiction

end Unmask.Hex
