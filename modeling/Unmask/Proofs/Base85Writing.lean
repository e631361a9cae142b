import Mathlib.Data.Nat.Digits.Defs
import Unmask.Codec.Radix
import Unmask.Proofs.RadixWriting

/-!
# Octets in digits of base 85

Four octets are a word and a word is five digits. A short group is filled up with zeros before it is
written and with the greatest digit before it is read, and on both sides the digits or octets that
come of this are cut off again. What is written is read as it was; of what was not written so, the
first group that is at fault is reported.
-/
namespace Unmask.Base85

/-- The digit with a value. -/
def symbol (value : Nat) : UInt8 := digits.getD value 0x7E

/-- The digits of a group of at most four octets: one more than there are octets. -/
def encodeGroup (group : Bytes) : Bytes :=
  let word := Radix.number (group ++ List.replicate (4 - group.length) 0)
  ((Radix.digits 85 5 word).take (group.length + 1)).map symbol

/-- The digits of at most `n` groups. -/
def encodeGroups : Nat → Bytes → Bytes
  | _, [] => []
  | 0, _ :: _ => []
  | n + 1, b :: rest =>
    encodeGroup ((b :: rest).take 4) ++ encodeGroups n ((b :: rest).drop 4)

/-- Octets in digits. -/
def encode (data : Bytes) : Bytes := encodeGroups data.length data

/-- The digit that fills up a short group. -/
def filler : UInt8 := 0x7E

/-- A group filled up to five digits. -/
def filled (group : Bytes) : Bytes := group ++ List.replicate (5 - group.length) filler

/-- The number that a group denotes when it is filled up. -/
def value (group : Bytes) : Nat := Nat.ofDigits 85 ((filled group).reverse.map digits.idxOf)

/-- A group of digits that denotes a word. -/
structure Sound (group : Bytes) : Prop where
  digits : ∀ b ∈ group, b ∈ digits
  word : value group < 2 ^ 32

/-- The octets of a group. -/
def denoted (group : Bytes) : Bytes := (Radix.octets 4 (value group)).take (group.length - 1)

/-- What is wrong with a group that starts at a place: the first octet that is no digit, or else the
number. -/
inductive Fault (start : Nat) (group : Bytes) : DecodeError → Prop
  | character {before after : Bytes} {b : UInt8} (hgroup : group = before ++ b :: after)
      (hbefore : ∀ c ∈ before, c ∈ digits) (hb : b ∉ digits) :
      Fault start group (.base85Character (start + before.length))
  | overflow (hdigits : ∀ b ∈ group, b ∈ digits) (hvalue : 2 ^ 32 ≤ value group) :
      Fault start group (.base85Overflow start)

/-- The groups of data, in their order. -/
def group (data : Bytes) (i : Nat) : Bytes := (data.drop (5 * i)).take 5

/-- What data is read as that starts at a place: the octets of its groups, or the fault of the first
group that is at fault. -/
inductive Reads (start : Nat) (data : Bytes) : Except DecodeError Bytes → Prop
  | sound (h : ∀ i, 5 * i < data.length → Sound (group data i)) :
      Reads start data
        (.ok ((List.range ((data.length + 4) / 5)).flatMap fun i => denoted (group data i)))
  | faulty {i : Nat} {e : DecodeError} (hi : 5 * i < data.length)
      (hbefore : ∀ j < i, Sound (group data j)) (hfault : Fault (start + 5 * i) (group data i) e) :
      Reads start data (.error e)

variable {b : UInt8} {data before after : Bytes} {start place word : Nat} {e : DecodeError}

lemma digit?_of_mem (h : b ∈ digits) : digit? b = some (digits.idxOf b) :=
  List.findIdx?_eq_some_iff_findIdx_eq.mpr ⟨List.idxOf_lt_length_iff.mpr h, rfl⟩

lemma digit?_of_not_mem (h : b ∉ digits) : digit? b = none := List.idxOf?_eq_none_iff.mpr h

lemma digit?_symbol : ∀ d < 85, digit? (symbol d) = some d := by decide +kernel

lemma digit?_lt {v : Nat} (h : digit? b = some v) : v < 85 :=
  (List.findIdx?_eq_some_iff_findIdx_eq.mp h).1

lemma values_of_mem (h : ∀ b ∈ data, b ∈ digits) :
    values place data = .ok (data.map digits.idxOf) := by
  induction data generalizing place with
  | nil => rfl
  | cons b rest ih =>
    have hrest : values (place + 1) rest = .ok (rest.map digits.idxOf) :=
      ih fun c hc => h c (List.mem_cons_of_mem b hc)
    rw [values, digit?_of_mem (h b List.mem_cons_self), hrest]
    rfl

/-- The first octet that is no digit is reported. -/
lemma values_of_not_mem (hbefore : ∀ c ∈ before, c ∈ digits) (hb : b ∉ digits) :
    values place (before ++ b :: after) = .error (.base85Character (place + before.length)) := by
  induction before generalizing place with
  | nil =>
    rw [List.nil_append, values, digit?_of_not_mem hb]
    rfl
  | cons c rest ih =>
    have hrest : values (place + 1) (rest ++ b :: after) =
        .error (.base85Character (place + 1 + rest.length)) :=
      ih fun d hd => hbefore d (List.mem_cons_of_mem c hd)
    rw [List.cons_append, values, digit?_of_mem (hbefore c List.mem_cons_self), hrest,
      List.length_cons, Nat.add_assoc, Nat.add_comm 1]
    rfl

lemma values_symbols {ds : List Nat} (h : ∀ d ∈ ds, d < 85) :
    values place (ds.map symbol) = .ok ds := by
  induction ds generalizing place with
  | nil => rfl
  | cons d rest ih =>
    have hrest : values (place + 1) (rest.map symbol) = .ok rest :=
      ih fun c hc => h c (List.mem_cons_of_mem d hc)
    rw [List.map_cons, values, digit?_symbol d (h d List.mem_cons_self), hrest]
    rfl

/-- The number that digits denote behind those of another number. -/
def horner (word : Nat) (ds : List Nat) : Nat := ds.foldl (fun n d => n * 85 + d) word

lemma horner_cons (d : Nat) (ds : List Nat) : horner word (d :: ds) = horner (word * 85 + d) ds :=
  rfl

lemma horner_append (ds es : List Nat) : horner word (ds ++ es) = horner (horner word ds) es :=
  List.foldl_append

lemma horner_eq_ofDigits (ds : List Nat) : horner 0 ds = Nat.ofDigits 85 ds.reverse := by
  rw [Nat.ofDigits_eq_foldr, List.foldr_reverse, horner]
  simp only [Nat.cast_id, Nat.add_comm, Nat.mul_comm]

lemma horner_digits (count n : Nat) :
    horner word (Radix.digits 85 count n) = word * 85 ^ count + n % 85 ^ count := by
  induction count generalizing word with
  | zero => simp [horner, Radix.digits, Nat.mod_one]
  | succ count ih =>
    rw [Radix.digits, horner_cons, ih, Nat.mod_pow_succ]
    ring

/-- Digits of the greatest value give the last number that starts as the digits before. -/
lemma horner_fill (count : Nat) :
    horner word (List.replicate count 84) + 1 = (word + 1) * 85 ^ count := by
  induction count generalizing word with
  | zero => simp [horner]
  | succ count ih =>
    rw [List.replicate_succ, horner_cons, ih]
    ring

/-- The result of a word, if the number is one. -/
def ofWord (start length n : Nat) : Except DecodeError Bytes :=
  if 2 ^ 32 ≤ n then .error (.base85Overflow start) else .ok ((Radix.octets 4 n).take (length - 1))

lemma decodeGroup_eq {vs : List Nat} (h : values start data = .ok vs) (hlength : data.length ≤ 5) :
    decodeGroup start data =
      ofWord start data.length (horner 0 (vs ++ List.replicate (5 - data.length) 84)) := by
  have hcut : 4 - (5 - data.length) = data.length - 1 := by omega
  rw [decodeGroup, h, ofWord, hcut]
  rfl

lemma value_eq (data : Bytes) :
    horner 0 (data.map digits.idxOf ++ List.replicate (5 - data.length) 84) = value data := by
  have hfiller : digits.idxOf filler = 84 := by decide +kernel
  rw [horner_eq_ofDigits, value, filled, List.map_reverse, List.map_append, List.map_replicate,
    hfiller]

lemma decodeGroup_of_sound (h : Sound data) (hlength : data.length ≤ 5) :
    decodeGroup start data = .ok (denoted data) := by
  rw [decodeGroup_eq (values_of_mem h.digits) hlength, value_eq, ofWord,
    if_neg (Nat.not_le.mpr h.word), denoted]

lemma decodeGroup_of_fault (h : Fault start data e) (hlength : data.length ≤ 5) :
    decodeGroup start data = .error e := by
  cases h with
  | character hgroup hbefore hb =>
    rw [decodeGroup, hgroup, values_of_not_mem hbefore hb]
    rfl
  | overflow hdigits hvalue =>
    rw [decodeGroup_eq (values_of_mem hdigits) hlength, value_eq, ofWord, if_pos hvalue]

/-- A group is sound, or something is wrong with it. -/
lemma sound_or_fault (start : Nat) (data : Bytes) : Sound data ∨ ∃ e, Fault start data e := by
  by_cases hdigits : ∀ b ∈ data, b ∈ digits
  · by_cases hword : value data < 2 ^ 32
    · exact .inl ⟨hdigits, hword⟩
    · exact .inr ⟨_, .overflow hdigits (Nat.not_lt.mp hword)⟩
  · cases hfind : data.find? fun b => decide (b ∉ digits) with
    | none =>
      refine absurd (fun b hb => ?_) hdigits
      simpa using List.find?_eq_none.mp hfind b hb
    | some b =>
      obtain ⟨hb, before, after, hgroup, hbefore⟩ := List.find?_eq_some_iff_append.mp hfind
      refine .inr ⟨_, .character hgroup (fun c hc => ?_) (by simpa using hb)⟩
      simpa using hbefore c hc

lemma Fault.not_sound (h : Fault start data e) : ¬Sound data := by
  intro hsound
  cases h with
  | character hgroup _ hb => exact hb (hsound.digits _ (by simp [hgroup]))
  | overflow _ hvalue => exact Nat.not_le.mpr hsound.word hvalue

lemma Fault.unique {e' : DecodeError} (h : Fault start data e) (h' : Fault start data e')
    (hlength : data.length ≤ 5) : e = e' :=
  Except.error.inj ((decodeGroup_of_fault h hlength).symm.trans (decodeGroup_of_fault h' hlength))

lemma length_group_le (data : Bytes) (i : Nat) : (group data i).length ≤ 5 := List.length_take_le ..

lemma group_succ (data : Bytes) (i : Nat) : group data (i + 1) = group (data.drop 5) i := by
  rw [group, group, List.drop_drop, Nat.mul_succ, Nat.add_comm]

lemma Reads.unique {r r' : Except DecodeError Bytes} (h : Reads start data r)
    (h' : Reads start data r') : r = r' := by
  cases h with
  | sound hsound =>
    cases h' with
    | sound => rfl
    | faulty hi _ hfault => exact absurd (hsound _ hi) hfault.not_sound
  | @faulty i _ hi hbefore hfault =>
    cases h' with
    | sound hsound => exact absurd (hsound _ hi) hfault.not_sound
    | @faulty j _ _ hbefore' hfault' =>
      obtain hlt | rfl | hlt := Nat.lt_trichotomy i j
      · exact absurd (hbefore' i hlt) hfault.not_sound
      · rw [hfault.unique hfault' (length_group_le data i)]
      · exact absurd (hbefore j hlt) hfault'.not_sound

/-- Behind a sound group the rest is read as it would be alone. -/
lemma Reads.behind {r : Except DecodeError Bytes} (hdata : data ≠ []) (h : Sound (data.take 5))
    (hr : Reads (start + 5) (data.drop 5) r) :
    Reads start data (r.map (denoted (data.take 5) ++ ·)) := by
  have hlength : 0 < data.length := List.length_pos_iff.mpr hdata
  cases hr with
  | sound hrest =>
    have hcount : (data.length + 4) / 5 = ((data.drop 5).length + 4) / 5 + 1 := by
      rw [List.length_drop]
      omega
    have hsound : ∀ i, 5 * i < data.length → Sound (group data i) := by
      intro i hi
      cases i with
      | zero => exact h
      | succ i =>
        rw [group_succ]
        exact hrest i (by rw [List.length_drop]; omega)
    have hreads : Reads start data _ := .sound hsound
    rw [hcount, List.range_succ_eq_map, List.flatMap_cons, List.flatMap_map] at hreads
    simp only [Nat.succ_eq_add_one, group_succ] at hreads
    exact hreads
  | @faulty i e hi hbefore hfault =>
    refine .faulty (i := i + 1) (by rw [List.length_drop] at hi; omega) (fun j hj => ?_) ?_
    · cases j with
      | zero => exact h
      | succ j =>
        rw [group_succ]
        exact hbefore j (Nat.lt_of_succ_lt_succ hj)
    · rw [group_succ, Nat.mul_succ, Nat.add_comm (5 * i), ← Nat.add_assoc]
      exact hfault

lemma reads_decodeGroups (n : Nat) (hn : data.length ≤ n) :
    Reads start data (decodeGroups n start data) := by
  induction n generalizing start data with
  | zero =>
    obtain rfl := List.eq_nil_of_length_eq_zero (Nat.le_zero.mp hn)
    exact .sound fun i hi => absurd hi (Nat.not_lt_zero _)
  | succ n ih =>
    rw [decodeGroups]
    cases data with
    | nil => exact .sound fun i hi => absurd hi (Nat.not_lt_zero _)
    | cons b rest =>
      have hlength : ((b :: rest).take 5).length ≤ 5 := List.length_take_le ..
      obtain hsound | ⟨e, hfault⟩ := sound_or_fault start ((b :: rest).take 5)
      · have hdrop : ((b :: rest).drop 5).length ≤ n := by
          rw [List.length_drop]
          rw [List.length_cons] at hn ⊢
          omega
        have hrest : Reads (start + 5) ((b :: rest).drop 5) _ := ih hdrop
        have hreads := hrest.behind (List.cons_ne_nil b rest) hsound
        rw [decodeGroup_of_sound hsound hlength]
        cases hr : decodeGroups n (start + 5) ((b :: rest).drop 5) <;> rw [hr] at hreads <;>
          exact hreads
      · rw [decodeGroup_of_fault hfault hlength]
        exact .faulty (i := 0) (Nat.succ_pos _) (fun j hj => absurd hj (Nat.not_lt_zero j)) hfault

/-- Data is read in just one way. -/
lemma decode_eq_iff {r : Except DecodeError Bytes} : decode data = r ↔ Reads 0 data r := by
  have hreads : Reads 0 data (decode data) := reads_decodeGroups data.length (Nat.le_refl _)
  constructor
  · rintro rfl
    exact hreads
  · exact hreads.unique

/-- A group gives one octet less than it has digits. -/
lemma length_denoted (h : data.length ≤ 5) : (denoted data).length = data.length - 1 := by
  rw [denoted, List.length_take, Radix.length_octets]
  omega

/-- A full group gives four octets, and one of `r` digits at the end gives `r - 1`. -/
lemma length_of_decode {out : Bytes} (h : decode data = .ok out) :
    out.length = 4 * (data.length / 5) + (data.length % 5 - 1) := by
  cases decode_eq_iff.mp h with
  | sound =>
    have hlength : ∀ i, (denoted (group data i)).length = min 5 (data.length - 5 * i) - 1 := by
      intro i
      rw [length_denoted (length_group_le data i), group, List.length_take, List.length_drop]
    have hfull : ((List.range (data.length / 5)).map fun i => (denoted (group data i)).length) =
        List.replicate (data.length / 5) 4 := by
      refine List.eq_replicate_iff.mpr ⟨by simp, fun n hn => ?_⟩
      obtain ⟨i, hi, rfl⟩ := List.mem_map.mp hn
      have hi := List.mem_range.mp hi
      rw [hlength]
      omega
    rw [List.length_flatMap]
    by_cases hshort : data.length % 5 = 0
    · have hcount : (data.length + 4) / 5 = data.length / 5 := by omega
      rw [hcount, hfull, List.sum_replicate_nat, hshort]
      omega
    · have hcount : (data.length + 4) / 5 = data.length / 5 + 1 := by omega
      rw [hcount, List.range_succ, List.map_append, hfull, List.sum_append_nat,
        List.sum_replicate_nat, List.map_singleton, List.sum_singleton, hlength]
      omega

lemma symbols_encodeGroup {octets : Bytes} (h : octets.length ≤ 4) :
    encodeGroup octets = (Radix.digits 85 (octets.length + 1)
      (Radix.number octets * 256 ^ (4 - octets.length) / 85 ^ (4 - octets.length))).map symbol := by
  have hcount : 5 = octets.length + 1 + (4 - octets.length) := by omega
  rw [encodeGroup, Radix.number_append_zeros]
  conv_lhs => rw [hcount]
  rw [Radix.take_digits]

lemma length_encodeGroup {octets : Bytes} (h : octets.length ≤ 4) :
    (encodeGroup octets).length = octets.length + 1 := by
  rw [symbols_encodeGroup h, List.length_map, Radix.length_digits]

/-- Between a number and the next one lies the number with the digits that are not written replaced
by the greatest ones. -/
lemma word_filled (n count : Nat) :
    let word := (n * 256 ^ count / 85 ^ count + 1) * 85 ^ count - 1
    n * 256 ^ count ≤ word ∧ word < (n + 1) * 256 ^ count := by
  have hpos : 0 < 85 ^ count := Nat.pow_pos (by decide)
  have hle : 85 ^ count ≤ 256 ^ count := Nat.pow_le_pow_left (by decide) count
  have hdiv := Nat.div_add_mod (n * 256 ^ count) (85 ^ count)
  have hmod := Nat.mod_lt (n * 256 ^ count) hpos
  rw [Nat.mul_comm] at hdiv
  simp only [Nat.succ_mul]
  omega

/-- A group is read as it was written. -/
lemma decodeGroup_encodeGroup {octets : Bytes} (h : octets.length ≤ 4) :
    decodeGroup start (encodeGroup octets) = .ok octets := by
  obtain ⟨count, hcount⟩ : ∃ count, 4 = octets.length + count := Nat.exists_eq_add_of_le h
  have hcut : 4 - octets.length = count := by omega
  have hfill : 5 - (octets.length + 1) = count := by omega
  have hnumber : (Radix.number octets + 1) * 256 ^ count ≤ 2 ^ 32 :=
    calc (Radix.number octets + 1) * 256 ^ count
      _ ≤ 256 ^ octets.length * 256 ^ count := Nat.mul_le_mul_right _ (Radix.number_lt octets)
      _ = 256 ^ 4 := by rw [← Nat.pow_add, ← hcount]
      _ = 2 ^ 32 := by decide
  obtain ⟨hlow, hhigh⟩ := word_filled (Radix.number octets) count
  have hlength := length_encodeGroup h
  have hsymbols := symbols_encodeGroup h
  rw [hcut] at hsymbols
  generalize hq : Radix.number octets * 256 ^ count / 85 ^ count = q at hlow hhigh hsymbols
  have hdigits : q < 85 ^ (octets.length + 1) := by
    have hpow : 85 ^ count * 85 ^ (octets.length + 1) = 85 ^ 5 := by
      rw [← Nat.pow_add]
      congr 1
      omega
    rw [← hq]
    refine Nat.div_lt_of_lt_mul ?_
    rw [hpow]
    omega
  have hvalues : values start (encodeGroup octets) =
      .ok (Radix.digits 85 (octets.length + 1) q) := by
    rw [hsymbols]
    exact values_symbols (Radix.digits_lt (by decide))
  have hword : horner 0 (Radix.digits 85 (octets.length + 1) q ++ List.replicate count 84) =
      (q + 1) * 85 ^ count - 1 := by
    rw [horner_append, horner_digits, Nat.zero_mul, Nat.zero_add, Nat.mod_eq_of_lt hdigits]
    exact Nat.eq_sub_of_add_eq (horner_fill count)
  have hoctets : (Radix.octets 4 ((q + 1) * 85 ^ count - 1)).take octets.length = octets := by
    have hquotient : ((q + 1) * 85 ^ count - 1) / 256 ^ count = Radix.number octets :=
      Nat.div_eq_of_lt_le hlow hhigh
    rw [hcount, Radix.take_octets, hquotient, Radix.octets_number]
  rw [decodeGroup_eq hvalues (by omega), hlength, hfill, hword, ofWord, if_neg (by omega),
    Nat.add_sub_cancel, hoctets]

/-- The digits of a group are five, or there are none behind them. -/
lemma take_encodeGroups (n : Nat) (data : Bytes) :
    let front := encodeGroup (data.take 4)
    let behind := encodeGroups n (data.drop 4)
    (front ++ behind).take 5 = front ∧ (front ++ behind).drop 5 = behind := by
  intro front behind
  have hlength : front.length = (data.take 4).length + 1 :=
    length_encodeGroup (List.length_take_le ..)
  rw [List.length_take] at hlength
  by_cases hfull : 4 ≤ data.length
  · have hfive : front.length = 5 := by omega
    exact ⟨List.take_left' hfive, List.drop_left' hfive⟩
  · have hbehind : behind = [] := by
      show encodeGroups n (data.drop 4) = []
      rw [List.drop_eq_nil_of_le (by omega), encodeGroups]
    rw [hbehind, List.append_nil]
    exact ⟨List.take_of_length_le (by omega), List.drop_eq_nil_of_le (by omega)⟩

/-- What is written is read as it was, with room for as many groups as there are. -/
lemma decodeGroups_encodeGroups (m n : Nat) (hn : data.length ≤ n)
    (hm : (encodeGroups n data).length ≤ m) :
    decodeGroups m start (encodeGroups n data) = .ok data := by
  induction n generalizing m start data with
  | zero =>
    rw [List.eq_nil_of_length_eq_zero (Nat.le_zero.mp hn)]
    cases m <;> rfl
  | succ n ih =>
    cases data with
    | nil => cases m <;> rfl
    | cons b rest =>
      obtain ⟨htake, hdrop⟩ := take_encodeGroups n (b :: rest)
      have htaken : ((b :: rest).take 4).length ≤ 4 := List.length_take_le ..
      have hlength := length_encodeGroup htaken
      have hread : decodeGroup start _ = _ := decodeGroup_encodeGroup htaken
      rw [encodeGroups] at hm ⊢
      rw [List.length_append, hlength] at hm
      obtain ⟨m, rfl⟩ := Nat.exists_eq_add_one.mpr (Nat.lt_of_lt_of_le (by omega) hm)
      have hleft : ((b :: rest).drop 4).length ≤ n := by
        rw [List.length_drop]
        rw [List.length_cons] at hn ⊢
        omega
      have hmore : decodeGroups m (start + 5) _ = _ := ih m hleft (by omega)
      have hne : (encodeGroup ((b :: rest).take 4) ++
          encodeGroups n ((b :: rest).drop 4)).isEmpty = false := by
        rw [List.isEmpty_eq_false_iff, ← List.length_pos_iff, List.length_append]
        omega
      rw [decodeGroups, hne, htake, hdrop, hread, hmore]
      exact congrArg Except.ok (List.take_append_drop 4 (b :: rest))

lemma decode_encode (data : Bytes) : decode (encode data) = .ok data :=
  decodeGroups_encodeGroups _ _ (Nat.le_refl _) (Nat.le_refl _)

/-- A number that is a word. -/
def word? (n : Nat) : Option Nat := if n < 2 ^ 32 then some n else none

/-- The word that a digit makes behind those of another word, if both the product and the sum are
words. -/
def push? (word digit : Nat) : Option Nat :=
  (word? (word * 85)).bind fun scaled => word? (scaled + digit)

/-- Reads the digits of the group that starts at a place one after another. -/
def readWord (start : Nat) : Nat → Nat → Bytes → Except DecodeError Nat
  | _, word, [] => .ok word
  | place, word, b :: rest =>
    match digit? b with
    | none => .error (.base85Character place)
    | some digit =>
      match push? word digit with
      | none => .error (.base85Overflow start)
      | some next => readWord start (place + 1) next rest

/-- The octets of a group, of which the digits are read one after another. -/
def readGroup (start : Nat) (group : Bytes) : Except DecodeError Bytes := do
  let word ← readWord start start 0 (filled group)
  return (Radix.octets 4 word).take (group.length - 1)

lemma push?_eq (word digit : Nat) : push? word digit = word? (word * 85 + digit) := by
  unfold push? word?
  by_cases hscaled : word * 85 < 2 ^ 32
  · rw [if_pos hscaled, Option.bind_some]
  · rw [if_neg hscaled, if_neg (by omega), Option.bind_none]

/-- Only a fifth digit can make the number too great, so no octet behind it is left unread. -/
lemma readWord_eq {rest : Bytes} (hlength : rest.length ≤ 5)
    (hword : word < 85 ^ (5 - rest.length)) (hsmall : word < 2 ^ 32) :
    readWord start place word rest = (values place rest).bind fun vs =>
      if 2 ^ 32 ≤ horner word vs then .error (.base85Overflow start) else .ok (horner word vs) := by
  induction rest generalizing place word with
  | nil => exact (if_neg (Nat.not_le.mpr hsmall)).symm
  | cons b rest ih =>
    rw [List.length_cons] at hlength hword
    rw [readWord, values]
    cases hdigit : digit? b with
    | none => rfl
    | some digit =>
      have hlt := digit?_lt hdigit
      have hpow : 85 ^ (5 - rest.length) = 85 * 85 ^ (5 - (rest.length + 1)) := by
        rw [← Nat.pow_succ']
        congr 1
        omega
      dsimp only
      rw [push?_eq, word?]
      by_cases hnext : word * 85 + digit < 2 ^ 32
      · rw [if_pos hnext]
        dsimp only
        rw [ih (by omega) (by rw [hpow]; omega) hnext]
        cases values (place + 1) rest <;> rfl
      · have hrest : rest = [] := by
          by_contra hne
          have hpos : 0 < rest.length := List.length_pos_iff.mpr hne
          have hle : 85 ^ (5 - (rest.length + 1)) ≤ 85 ^ 3 :=
            Nat.pow_le_pow_right (by decide) (by omega)
          omega
        rw [if_neg hnext, hrest]
        exact (if_pos (Nat.not_lt.mp hnext)).symm

lemma values_filled (count : Nat) : values place (data ++ List.replicate count filler) =
    (values place data).map (· ++ List.replicate count 84) := by
  induction data generalizing place with
  | nil =>
    have hfiller : List.replicate count filler = (List.replicate count 84).map symbol := by
      rw [List.map_replicate]
      rfl
    rw [List.nil_append, hfiller, values_symbols fun d hd => by
      rw [List.eq_of_mem_replicate hd]
      decide]
    rfl
  | cons b rest ih =>
    rw [List.cons_append, values, values, ih]
    cases digit? b with
    | none => rfl
    | some d => cases values (place + 1) rest <;> rfl

/-- Whether the digits are read first or one after another makes no difference. -/
lemma readGroup_eq (hlength : data.length ≤ 5) : readGroup start data = decodeGroup start data := by
  have hfive : (filled data).length = 5 := by
    rw [filled, List.length_append, List.length_replicate]
    omega
  have hread : readWord start start 0 (filled data) = _ :=
    readWord_eq (Nat.le_of_eq hfive) (by rw [hfive]; decide) (by decide)
  rw [readGroup, hread, filled, values_filled]
  cases hvalues : values start data with
  | error e =>
    rw [decodeGroup, hvalues]
    rfl
  | ok vs =>
    rw [decodeGroup_eq hvalues hlength, ofWord]
    show Except.bind (if _ then _ else _) _ = _
    split <;> rfl

/-- Whatever is written in base 85 is read as it was. All else is read group by group: as the octets
of all groups, one less of a group than it has digits, or as the fault of the first group that is at
fault, an octet that is no digit before a number that is no word. The result is the same if the
digits are read one after another and each product and sum is checked on the way. -/
theorem decode_exact :
    (∀ data, decode (encode data) = .ok data) ∧
    (∀ data r, decode data = r ↔ Reads 0 data r) ∧
    (∀ data out, decode data = .ok out →
      out.length = 4 * (data.length / 5) + (data.length % 5 - 1)) ∧
    ∀ data i, readGroup (5 * i) (group data i) = decodeGroup (5 * i) (group data i) :=
  ⟨decode_encode, fun _ _ => decode_eq_iff, fun _ _ => length_of_decode,
    fun data i => readGroup_eq (length_group_le data i)⟩

example : encode (Text.Utf8.encode "hello") = Text.Utf8.encode "Xk~0\x7bZv" := by decide +kernel

end Unmask.Base85
