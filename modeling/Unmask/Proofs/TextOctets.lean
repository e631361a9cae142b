import Mathlib.Tactic.Lemma
import Unmask.Text.Utf8

/-!
# Text and its octets

The octets of a text are those of its characters, one after another. Octets are read as a text just
when they are the octets of that text: at the front of the octets of a character stands this
character, and no other octets have it at their front.
-/
namespace Unmask.Text.Utf8

variable {c : Char} {a b d e : UInt8} {rest : Bytes} {n width : Nat}

lemma isTail_iff : isTail b = true ↔ 0x80 ≤ b.toNat ∧ b.toNat ≤ 0xBF := by
  simp [isTail, UInt8.le_iff_toNat_le]

lemma isSecondOfThree_iff : isSecondOfThree a b = true ↔
    isTail b = true ∧ (a.toNat = 0xE0 → 0xA0 ≤ b.toNat) ∧ (a.toNat = 0xED → b.toNat ≤ 0x9F) := by
  simp only [isSecondOfThree, isTail_iff, beq_iff_eq, ← UInt8.toNat_inj]
  split
  · next h => simp [h, UInt8.le_iff_toNat_le]; omega
  · next h =>
    split
    · next h' => simp [h', UInt8.le_iff_toNat_le]; omega
    · next h' => simp_all [isTail_iff]

lemma isSecondOfFour_iff : isSecondOfFour a b = true ↔
    isTail b = true ∧ (a.toNat = 0xF0 → 0x90 ≤ b.toNat) ∧ (a.toNat = 0xF4 → b.toNat ≤ 0x8F) := by
  simp only [isSecondOfFour, isTail_iff, beq_iff_eq, ← UInt8.toNat_inj]
  split
  · next h => simp [h, UInt8.le_iff_toNat_le]; omega
  · next h =>
    split
    · next h' => simp [h', UInt8.le_iff_toNat_le]; omega
    · next h' => simp_all [isTail_iff]

lemma toNat_ofNat (h : n.isValidChar) : (Char.ofNat n).toNat = n := by
  rw [Char.ofNat, dif_pos h]
  rfl

lemma ofNat_eq (h : n = a.toNat) : UInt8.ofNat n = a := by
  rw [h, UInt8.ofNat_toNat]

/-- The octets of characters. -/
inductive Spelled : Char → Bytes → Prop where
  | one {a : UInt8} (ha : a.toNat < 0x80) : Spelled (Char.ofNat a.toNat) [a]
  | two {a b : UInt8} (ha : 0xC2 ≤ a.toNat ∧ a.toNat ≤ 0xDF) (hb : isTail b = true) :
    Spelled (Char.ofNat ((a.toNat - 0xC0) * 64 + tailBits b)) [a, b]
  | three {a b d : UInt8} (ha : 0xE0 ≤ a.toNat ∧ a.toNat ≤ 0xEF)
    (hb : isSecondOfThree a b = true) (hd : isTail d = true) :
    Spelled (Char.ofNat ((a.toNat - 0xE0) * 4096 + tailBits b * 64 + tailBits d)) [a, b, d]
  | four {a b d e : UInt8} (ha : 0xF0 ≤ a.toNat ∧ a.toNat ≤ 0xF4)
    (hb : isSecondOfFour a b = true) (hd : isTail d = true) (he : isTail e = true) :
    Spelled (Char.ofNat ((a.toNat - 0xF0) * 262144 + tailBits b * 4096 + tailBits d * 64 +
      tailBits e)) [a, b, d, e]

/-- The octets of a character are its encoding. -/
lemma Spelled.encode_eq {o : Bytes} (h : Spelled c o) : String.utf8EncodeChar c = o := by
  have hchar : ∀ {n : Nat}, n.isValidChar → (Char.ofNat n).val.toNat = n := toNat_ofNat
  cases h with
  | one ha =>
    rw [String.utf8EncodeChar, hchar (.inl (by omega)), if_pos (by omega), UInt8.ofNat_toNat]
  | @two a b ha hb =>
    rw [isTail_iff] at hb
    unfold tailBits
    generalize hn : (a.toNat - 0xC0) * 64 + (b.toNat - 0x80) = n
    rw [String.utf8EncodeChar, hchar (.inl (by omega)), if_neg (by omega), if_pos (by omega),
      ofNat_eq (a := a) (by omega), ofNat_eq (a := b) (by omega)]
  | @three a b d ha hb hd =>
    rw [isSecondOfThree_iff, isTail_iff] at hb
    rw [isTail_iff] at hd
    unfold tailBits
    generalize hn : (a.toNat - 0xE0) * 4096 + (b.toNat - 0x80) * 64 + (d.toNat - 0x80) = n
    have hvalid : n.isValidChar := by
      unfold Nat.isValidChar
      omega
    rw [String.utf8EncodeChar, hchar hvalid, if_neg (by omega), if_neg (by omega),
      if_pos (by omega), ofNat_eq (a := a) (by omega), ofNat_eq (a := b) (by omega),
      ofNat_eq (a := d) (by omega)]
  | @four a b d e ha hb hd he =>
    rw [isSecondOfFour_iff, isTail_iff] at hb
    rw [isTail_iff] at hd he
    unfold tailBits
    generalize hn : (a.toNat - 0xF0) * 262144 + (b.toNat - 0x80) * 4096 + (d.toNat - 0x80) * 64 +
      (e.toNat - 0x80) = n
    have hvalid : n.isValidChar := by
      unfold Nat.isValidChar
      omega
    rw [String.utf8EncodeChar, hchar hvalid, if_neg (by omega), if_neg (by omega),
      if_neg (by omega), ofNat_eq (a := a) (by omega), ofNat_eq (a := b) (by omega),
      ofNat_eq (a := d) (by omega), ofNat_eq (a := e) (by omega)]

lemma exists_octet (h : n < 0x100) : ∃ a : UInt8, a.toNat = n :=
  ⟨.ofNat n, UInt8.toNat_ofNat_of_lt h⟩

/-- What is checked for all numbers of eight bits holds for every octet. -/
lemma forall_octet {P : UInt8 → Prop} (h : ∀ n < 0x100, P (.ofNat n)) (o : UInt8) : P o := by
  have ho := h o.toNat o.toNat_lt
  rwa [UInt8.ofNat_toNat] at ho

/-- Every character has octets. -/
lemma exists_spelled (c : Char) : ∃ o, Spelled c o := by
  have hvalid : c.toNat.isValidChar := c.valid
  rw [← Char.ofNat_toNat c]
  generalize c.toNat = n at hvalid
  unfold Nat.isValidChar at hvalid
  have hsize : n < 0x80 ∨ (0x80 ≤ n ∧ n < 0x800) ∨ (0x800 ≤ n ∧ n < 0x10000) ∨ 0x10000 ≤ n := by
    omega
  obtain ⟨z, hz⟩ := exists_octet (n := 0x80 + n % 64) (by omega)
  have hlast : isTail z = true := isTail_iff.mpr (by omega)
  obtain hone | htwo | hthree | hfour := hsize
  · obtain ⟨a, rfl⟩ := exists_octet (n := n) (by omega)
    exact ⟨_, .one hone⟩
  · obtain ⟨a, ha⟩ := exists_octet (n := 0xC0 + n / 64) (by omega)
    have hn : n = (a.toNat - 0xC0) * 64 + tailBits z := by
      unfold tailBits
      omega
    refine ⟨[a, z], ?_⟩
    rw [hn]
    exact .two (by omega) hlast
  · obtain ⟨a, ha⟩ := exists_octet (n := 0xE0 + n / 4096) (by omega)
    obtain ⟨b, hb⟩ := exists_octet (n := 0x80 + n / 64 % 64) (by omega)
    have hn : n = (a.toNat - 0xE0) * 4096 + tailBits b * 64 + tailBits z := by
      unfold tailBits
      omega
    have hsecond : isSecondOfThree a b = true := by
      rw [isSecondOfThree_iff, isTail_iff]
      omega
    refine ⟨[a, b, z], ?_⟩
    rw [hn]
    exact .three (by omega) hsecond hlast
  · obtain ⟨a, ha⟩ := exists_octet (n := 0xF0 + n / 262144) (by omega)
    obtain ⟨b, hb⟩ := exists_octet (n := 0x80 + n / 4096 % 64) (by omega)
    obtain ⟨d, hd⟩ := exists_octet (n := 0x80 + n / 64 % 64) (by omega)
    have hn : n = (a.toNat - 0xF0) * 262144 + tailBits b * 4096 + tailBits d * 64 + tailBits z := by
      unfold tailBits
      omega
    have hsecond : isSecondOfFour a b = true := by
      rw [isSecondOfFour_iff, isTail_iff]
      omega
    refine ⟨[a, b, d, z], ?_⟩
    rw [hn]
    exact .four (by omega) hsecond (isTail_iff.mpr (by omega)) hlast

/-- The octets of a character at the front of a sequence. -/
def AtFront (c : Char) (width : Nat) (a : UInt8) (rest : Bytes) : Prop :=
  ∃ tail after, Spelled c (a :: tail) ∧ rest = tail ++ after ∧ width = tail.length + 1

lemma atFront_of_two (ha : 0xC2 ≤ a.toNat ∧ a.toNat ≤ 0xDF)
    (h : Front.ofTwo a rest = .char c width) : AtFront c width a rest := by
  unfold Front.ofTwo at h
  split at h
  · next b after =>
    split at h
    · next hb =>
      obtain ⟨rfl, rfl⟩ := Front.char.inj h
      exact ⟨[b], after, .two ha hb, rfl, rfl⟩
    · contradiction
  · contradiction

lemma atFront_of_three (ha : 0xE0 ≤ a.toNat ∧ a.toNat ≤ 0xEF)
    (h : Front.ofThree a rest = .char c width) : AtFront c width a rest := by
  unfold Front.ofThree at h
  split at h
  · next b d after =>
    split at h
    · contradiction
    · next hb =>
      split at h
      · contradiction
      · next hd =>
        obtain ⟨rfl, rfl⟩ := Front.char.inj h
        simp only [Bool.not_eq_true', Bool.not_eq_false] at hb hd
        exact ⟨[b, d], after, .three ha hb hd, rfl, rfl⟩
  · split at h <;> contradiction
  · contradiction

lemma atFront_of_four (ha : 0xF0 ≤ a.toNat ∧ a.toNat ≤ 0xF4)
    (h : Front.ofFour a rest = .char c width) : AtFront c width a rest := by
  unfold Front.ofFour at h
  split at h
  · next b d e after =>
    split at h
    · contradiction
    · next hb =>
      split at h
      · contradiction
      · next hd =>
        split at h
        · contradiction
        · next he =>
          obtain ⟨rfl, rfl⟩ := Front.char.inj h
          simp only [Bool.not_eq_true', Bool.not_eq_false] at hb hd he
          exact ⟨[b, d, e], after, .four ha hb hd he, rfl, rfl⟩
  · split at h
    · contradiction
    · split at h <;> contradiction
  · split at h <;> contradiction
  · contradiction

lemma front_eq (a : UInt8) (rest : Bytes) : Front.of a rest =
    if a.toNat < 0x80 then .char (Char.ofNat a.toNat) 1
    else if 0xC2 ≤ a.toNat ∧ a.toNat ≤ 0xDF then .ofTwo a rest
    else if 0xE0 ≤ a.toNat ∧ a.toNat ≤ 0xEF then .ofThree a rest
    else if 0xF0 ≤ a.toNat ∧ a.toNat ≤ 0xF4 then .ofFour a rest
    else .invalid 1 := by
  simp [Front.of, UInt8.lt_iff_toNat_lt, UInt8.le_iff_toNat_le]

/-- A character at the front stands there with its octets. -/
lemma atFront_of_char (h : Front.of a rest = .char c width) : AtFront c width a rest := by
  rw [front_eq] at h
  split at h
  · next ha =>
    obtain ⟨rfl, rfl⟩ := Front.char.inj h
    exact ⟨[], rest, .one ha, rfl, rfl⟩
  · split at h
    · next ha => exact atFront_of_two ha h
    · split at h
      · next ha => exact atFront_of_three ha h
      · split at h
        · next ha => exact atFront_of_four ha h
        · contradiction

/-- The octets of a character are read as this character, whatever comes behind them. -/
lemma front_of_spelled {tail : Bytes} (h : Spelled c (a :: tail)) (after : Bytes) :
    Front.of a (tail ++ after) = .char c (tail.length + 1) := by
  rw [front_eq]
  cases h with
  | one ha =>
    rw [if_pos ha]
    rfl
  | two ha hb =>
    rw [if_neg (by omega), if_pos ha]
    simp [Front.ofTwo, hb]
  | three ha hb hd =>
    rw [if_neg (by omega), if_neg (by omega), if_pos ha]
    simp [Front.ofThree, hb, hd]
  | four ha hb hd he =>
    rw [if_neg (by omega), if_neg (by omega), if_neg (by omega), if_pos ha]
    simp [Front.ofFour, hb, hd, he]

/-- The octets of characters, one after another. -/
def octets (cs : List Char) : Bytes := cs.flatMap String.utf8EncodeChar

lemma octets_append (cs ds : List Char) : octets (cs ++ ds) = octets cs ++ octets ds :=
  List.flatMap_append

lemma encode_eq (s : String) : encode s = octets s.toList := by
  rw [encode, String.toUTF8_eq_toByteArray, ← s.ofList_toList, String.toByteArray_ofList,
    List.utf8Encode, List.toList_data_toByteArray, String.toList_ofList, octets]

/-- What is read are the characters before and those of the octets that are not left out. -/
lemma octets_of_decodeFrom {skip index : Nat} {done cs : List Char} {o : Bytes}
    (h : decodeFrom skip index done o = .ok cs) :
    octets cs = octets done.reverse ++ o.drop skip := by
  fun_induction decodeFrom skip index done o with
  | case1 skip index done =>
    cases h
    simp
  | case2 skip index done b rest ih => exact ih h
  | case3 index done a rest c width hfront ih =>
    obtain ⟨tail, after, hspelled, rfl, rfl⟩ := atFront_of_char hfront
    have hlast : octets [c] = a :: tail := by
      rw [octets, List.flatMap_singleton, hspelled.encode_eq]
    rw [ih h, List.reverse_cons, octets_append, hlast]
    simp
  | case4 | case5 => contradiction

lemma decodeFrom_skip (index : Nat) (done : List Char) (tail after : Bytes) :
    decodeFrom tail.length index done (tail ++ after) =
      decodeFrom 0 (index + tail.length) done after := by
  induction tail generalizing index with
  | nil => rfl
  | cons b tail ih =>
    rw [List.length_cons, List.cons_append, decodeFrom, ih, Nat.add_right_comm, Nat.add_assoc]

/-- The octets of characters are read as these characters. -/
lemma decodeFrom_octets (index : Nat) (done cs : List Char) :
    decodeFrom 0 index done (octets cs) = .ok (done.reverse ++ cs) := by
  induction cs generalizing index done with
  | nil => simp [octets, decodeFrom]
  | cons c cs ih =>
    obtain ⟨o, hspelled⟩ := exists_spelled c
    obtain ⟨a, tail, rfl⟩ : ∃ a tail, o = a :: tail := by
      cases hspelled <;> exact ⟨_, _, rfl⟩
    have hoctets : octets (c :: cs) = a :: (tail ++ octets cs) := by
      rw [octets, List.flatMap_cons, hspelled.encode_eq, octets, List.cons_append]
    rw [hoctets, decodeFrom, front_of_spelled hspelled]
    dsimp only
    rw [Nat.add_sub_cancel, decodeFrom_skip, ih, List.reverse_cons, List.append_assoc]
    rfl

/-- Octets are read as a text just when they are the octets of this text. -/
theorem decode_eq_ok_iff {o : Bytes} {s : String} : decode o = .ok s ↔ encode s = o := by
  rw [encode_eq]
  constructor
  · intro h
    cases hcs : decodeChars o with
    | error fault =>
      rw [decode, hcs] at h
      contradiction
    | ok cs =>
      rw [decode, hcs] at h
      cases h
      rw [String.toList_ofList, octets_of_decodeFrom hcs]
      rfl
  · rintro rfl
    rw [decode, decodeChars, decodeFrom_octets, List.reverse_nil, List.nil_append, Except.map,
      String.ofList_toList]

/-- The text with the octets as code points. -/
def ofAscii (o : Bytes) : String := String.ofList (o.map fun b => Char.ofNat b.toNat)

lemma ascii_ofAscii {o : Bytes} (h : ∀ b ∈ o, b.toNat < 0x80) :
    ∀ c ∈ (ofAscii o).toList, c.toNat < 0x80 := by
  intro c hc
  rw [ofAscii, String.toList_ofList] at hc
  obtain ⟨b, hb, rfl⟩ := List.mem_map.mp hc
  rw [toNat_ofNat (.inl (Nat.lt_trans (h b hb) (by decide)))]
  exact h b hb

/-- Octets below 0x80 are those of their text. -/
lemma encode_ofAscii {o : Bytes} (h : ∀ b ∈ o, b.toNat < 0x80) : encode (ofAscii o) = o := by
  rw [encode_eq, ofAscii, String.toList_ofList]
  induction o with
  | nil => rfl
  | cons b rest ih =>
    have hrest := ih fun x hx => h x (List.mem_cons_of_mem b hx)
    rw [octets] at hrest ⊢
    rw [List.map_cons, List.flatMap_cons, (Spelled.one (h b List.mem_cons_self)).encode_eq, hrest,
      List.singleton_append]

end Unmask.Text.Utf8
