import Mathlib.Data.List.Forall2
import Mathlib.Data.Nat.Digits.Lemmas
import Unmask.Proofs.StringLiterals

/-!
# Elements of string literals

The body of a string literal is a row of elements, each of which stands for characters: a character
for itself, the end of a line for a line feed, an escape for what it names. A body is read element
by element, so it is read if and only if it is such a row; what is read is what the row stands for,
unless a carriage return is in it.
-/
namespace Unmask.Literal
open Text

/-- A digit in a base, in either letter case. -/
def IsDigit (base : Nat) (c : Char) (v : Nat) : Prop :=
  v < base ∧ (c = v.digitChar ∨ c = v.digitChar.toUpper)

instance (base : Nat) (c : Char) (v : Nat) : Decidable (IsDigit base c v) :=
  inferInstanceAs (Decidable (_ ∧ _))

/-- The number that digits denote, the highest one first. -/
def Numeral (base : Nat) (ds : List Char) (n : Nat) : Prop :=
  ∃ vs, List.Forall₂ (IsDigit base) ds.reverse vs ∧ n = Nat.ofDigits base vs

/-- How a line ends in front of what follows: by a line feed, by a carriage return, or by both. -/
inductive LineEnd : List Char → List Char → Prop
  | feed {rest : List Char} : LineEnd ['\n'] rest
  | both {rest : List Char} : LineEnd ['\r', '\n'] rest
  | ret {rest : List Char} : rest.head? ≠ some '\n' → LineEnd ['\r'] rest

/-- The letters that stand for one character behind a backslash. -/
def letters : List (Char × Char) :=
  [('\\', '\\'), ('\'', '\''), ('"', '"'), ('a', '\x07'), ('b', '\x08'), ('f', '\x0c'),
    ('n', '\n'), ('r', '\r'), ('t', '\t'), ('v', '\x0b')]

/-- The letters with a code behind them, and how many digits it has; octets have only the first. -/
def codes (wide : Bool) : List (Char × Nat) :=
  ('x', 2) :: if wide then [('u', 4), ('U', 8)] else []

/-- Whether a character means something behind a backslash. -/
def Special (wide : Bool) (c : Char) : Prop :=
  c = '\n' ∨ c = '\r' ∨ c ∈ letters.map Prod.fst ∨ c ∈ (codes wide).map Prod.fst ∨
    (wide = true ∧ c = 'N') ∨ ∃ v, IsDigit 8 c v

/-- What the front of a body is written as and what it stands for, before the rest. Nothing is
escaped in a raw literal; `wide` tells text from octets. -/
inductive Element (raw wide : Bool) : List Char → List Char → List Char → Prop
  | itself {c : Char} {rest : List Char} : c ≠ '\n' → c ≠ '\r' → (c = '\\' → raw = true) →
      Element raw wide [c] [c] rest
  | lineEnd {ending rest : List Char} : LineEnd ending rest → Element raw wide ending ['\n'] rest
  | joined {ending rest : List Char} : raw = false → LineEnd ending rest →
      Element raw wide ('\\' :: ending) [] rest
  | letter {l c : Char} {rest : List Char} : raw = false → (l, c) ∈ letters →
      Element raw wide ['\\', l] [c] rest
  | octal {ds rest : List Char} {n : Nat} {c : Char} : raw = false → ds.length ∈ [1, 2, 3] →
      Numeral 8 ds n → (ds.length = 3 ∨ ∀ d ∈ rest.head?, ∀ v, ¬IsDigit 8 d v) →
      c.toNat = (if wide then n else n % 256) → Element raw wide ('\\' :: ds) [c] rest
  | code {mark c : Char} {ds rest : List Char} {count : Nat} : raw = false →
      (mark, count) ∈ codes wide → ds.length = count → Numeral 16 ds c.toNat →
      Element raw wide ('\\' :: mark :: ds) [c] rest
  | kept {l : Char} {rest : List Char} : raw = false → ¬Special wide l →
      Element raw wide ['\\', l] ['\\', l] rest

/-- The characters that a body stands for, element by element. -/
inductive Spells (raw wide : Bool) : List Char → List Char → Prop
  | nil : Spells raw wide [] []
  | cons {written chars rest value : List Char} : Element raw wide written chars rest →
      Spells raw wide rest value → Spells raw wide (written ++ rest) (chars ++ value)

variable {raw wide : Bool} {c : Char} {n v : Nat}
  {ds written chars read rest body value : List Char}

/-- Characters in a row are digits if they are, place by place. -/
lemma isDigit_of_range {base : Nat} {first last : Char} (value : Nat → Nat)
    (hrow : ∀ d ≤ last.toNat - first.toNat, IsDigit base (Char.ofNat (first.toNat + d)) (value d))
    (hfirst : first ≤ c) (hlast : c ≤ last) : IsDigit base c (value (c.toNat - first.toNat)) := by
  have hle : first.toNat ≤ c.toNat := UInt32.le_iff_toNat_le.mp hfirst
  have hplace := hrow (c.toNat - first.toNat)
    (Nat.sub_le_sub_right (UInt32.le_iff_toNat_le.mp hlast) _)
  rwa [Nat.add_sub_cancel' hle, Char.ofNat_toNat] at hplace

lemma hexDigit?_eq_some_iff : hexDigit? c = some v ↔ IsDigit 16 c v := by
  constructor
  · intro h
    unfold hexDigit? isAsciiDigit at h
    simp only [Bool.and_eq_true, decide_eq_true_eq] at h
    split_ifs at h with hdigit hlower hupper <;> cases h
    · exact isDigit_of_range id (by decide) hdigit.1 hdigit.2
    · exact isDigit_of_range (· + 10) (by decide) hlower.1 hlower.2
    · exact isDigit_of_range (· + 10) (by decide) hupper.1 hupper.2
  · rintro ⟨hv, rfl | rfl⟩
    · exact hexDigit?_digitChar hv
    · revert v
      decide

lemma octalDigit?_eq_some_iff : octalDigit? c = some v ↔ IsDigit 8 c v := by
  constructor
  · intro h
    unfold octalDigit? at h
    simp only [Bool.and_eq_true, decide_eq_true_eq] at h
    split_ifs at h with hdigit
    cases h
    exact isDigit_of_range id (by decide) hdigit.1 hdigit.2
  · rintro ⟨hv, rfl | rfl⟩ <;>
    · revert v
      decide

lemma octalDigit?_eq_none_iff : octalDigit? c = none ↔ ∀ v, ¬IsDigit 8 c v := by
  simp only [Option.eq_none_iff_forall_ne_some, ← octalDigit?_eq_some_iff, ne_eq]

lemma hexDigit?_eq_none_iff : hexDigit? c = none ↔ ∀ v, ¬IsDigit 16 c v := by
  simp only [Option.eq_none_iff_forall_ne_some, ← hexDigit?_eq_some_iff, ne_eq]

/-- All characters of a numeral are digits. -/
lemma Numeral.not_mem {base : Nat} (h : Numeral base ds n) (hc : ∀ v, ¬IsDigit base c v) :
    c ∉ ds := by
  obtain ⟨vs, hvs, -⟩ := h
  rw [← List.mem_reverse]
  generalize ds.reverse = reversed at hvs ⊢
  induction hvs with
  | nil => simp
  | cons hv _ ih =>
    rw [List.mem_cons, not_or]
    exact ⟨fun heq => hc _ (heq ▸ hv), ih⟩

lemma numeral_append {base : Nat} : Numeral base (ds ++ [c]) n ↔
    ∃ m v, Numeral base ds m ∧ IsDigit base c v ∧ n = m * base + v := by
  have hreverse : (ds ++ [c]).reverse = c :: ds.reverse := by simp
  constructor
  · rintro ⟨vs, hvs, rfl⟩
    rw [hreverse, List.forall₂_cons_left_iff] at hvs
    obtain ⟨v, front, hv, hfront, rfl⟩ := hvs
    refine ⟨_, v, ⟨front, hfront, rfl⟩, hv, ?_⟩
    rw [Nat.ofDigits_cons, Nat.mul_comm, Nat.add_comm]
  · rintro ⟨m, v, ⟨vs, hvs, rfl⟩, hv, rfl⟩
    refine ⟨v :: vs, by rw [hreverse]; exact .cons hv hvs, ?_⟩
    rw [Nat.ofDigits_cons, Nat.mul_comm, Nat.add_comm]

lemma numeral_nil {base : Nat} : Numeral base [] n ↔ n = 0 := by
  constructor
  · rintro ⟨vs, hvs, rfl⟩
    cases hvs
    rfl
  · rintro rfl
    exact ⟨[], .nil, rfl⟩

lemma hexValue?_eq_some_iff : hexValue? ds = some n ↔ Numeral 16 ds n := by
  induction ds using List.reverseRecOn generalizing n with
  | nil => simp [hexValue?, numeral_nil, eq_comm]
  | append_singleton ds c ih =>
    rw [hexValue?_append, numeral_append]
    simp only [Option.bind_eq_some_iff, Option.map_eq_some_iff, ih, hexDigit?_eq_some_iff]
    constructor
    · rintro ⟨m, hm, v, hv, rfl⟩
      exact ⟨m, v, hm, hv, rfl⟩
    · rintro ⟨m, v, hm, hv, rfl⟩
      exact ⟨m, hm, v, hv, rfl⟩

lemma toNat_ofNat (h : n.isValidChar) : (Char.ofNat n).toNat = n := by
  rw [Char.ofNat, dif_pos h]
  rfl

lemma charOfCode?_eq_some_iff : charOfCode? n = some c ↔ n = c.toNat := by
  constructor
  · intro h
    rw [charOfCode?] at h
    split_ifs at h with hvalid
    cases h
    rw [toNat_ofNat hvalid]
  · rintro rfl
    have hvalid : c.toNat.isValidChar := c.valid
    rw [charOfCode?, if_pos hvalid, Char.ofNat_toNat]

lemma hexChar?_eq_some_iff : hexChar? ds = some c ↔ Numeral 16 ds c.toNat := by
  simp only [hexChar?, Option.bind_eq_some_iff, hexValue?_eq_some_iff, charOfCode?_eq_some_iff]
  constructor
  · rintro ⟨n, hn, rfl⟩
    exact hn
  · exact fun h => ⟨_, h, rfl⟩

lemma numeral_one {base : Nat} {a : Char} : Numeral base [a] n ↔ IsDigit base a n := by
  rw [show [a] = [] ++ [a] from rfl, numeral_append]
  simp [numeral_nil]

lemma numeral_two {base : Nat} {a b : Char} : Numeral base [a, b] n ↔
    ∃ v w, IsDigit base a v ∧ IsDigit base b w ∧ n = v * base + w := by
  rw [show [a, b] = [a] ++ [b] from rfl, numeral_append]
  simp only [numeral_one]

lemma numeral_three {base : Nat} {a b d : Char} : Numeral base [a, b, d] n ↔
    ∃ u v w, IsDigit base a u ∧ IsDigit base b v ∧ IsDigit base d w ∧
      n = (u * base + v) * base + w := by
  rw [show [a, b, d] = [a, b] ++ [d] from rfl, numeral_append]
  simp only [numeral_two]
  constructor
  · rintro ⟨m, w, ⟨u, v, hu, hv, rfl⟩, hw, rfl⟩
    exact ⟨u, v, w, hu, hv, hw, rfl⟩
  · rintro ⟨u, v, w, hu, hv, hw, rfl⟩
    exact ⟨_, w, ⟨u, v, hu, hv, rfl⟩, hw, rfl⟩

lemma decodeBody_plain (h : c ≠ '\\') (done rest : List Char) :
    decodeBody wide done (c :: rest) = decodeBody wide (c :: done) rest := by
  rw [decodeBody]
  · exact fun h' => absurd h' h
  · exact fun _ _ h' => absurd h' h

lemma mem_codes {mark : Char} {count : Nat} : (mark, count) ∈ codes wide ↔
    (mark = 'x' ∧ count = 2) ∨ wide = true ∧ (mark = 'u' ∧ count = 4 ∨ mark = 'U' ∧ count = 8) := by
  cases wide <;> simp [codes]

lemma decodeBody_code {mark : Char} {count : Nat} (h : (mark, count) ∈ codes wide)
    (done rest : List Char) :
    decodeBody wide done ('\\' :: mark :: rest) =
      if count ≤ rest.length then
        (hexChar? (rest.take count)).bind fun x => decodeBody wide (x :: done) (rest.drop count)
      else none := by
  rw [decodeBody.eq_def]
  rcases mem_codes.mp h with ⟨rfl, rfl⟩ | ⟨rfl, ⟨rfl, rfl⟩ | ⟨rfl, rfl⟩⟩
  · rcases rest with _ | ⟨a, _ | ⟨b, rest⟩⟩
    · simp
    · simp
    · cases hx : hexChar? [a, b] <;> simp [hx]
  · rcases rest with _ | ⟨a, _ | ⟨b, _ | ⟨d, _ | ⟨e, rest⟩⟩⟩⟩
    iterate 4 simp
    cases hx : hexChar? [a, b, d, e] <;> simp [hx]
  · rcases rest with
      _ | ⟨a, _ | ⟨b, _ | ⟨d, _ | ⟨e, _ | ⟨f, _ | ⟨g, _ | ⟨i, _ | ⟨j, rest⟩⟩⟩⟩⟩⟩⟩⟩
    iterate 8 simp
    cases hx : hexChar? [a, b, d, e, f, g, i, j] <;> simp [hx]

/-- No octal digit is a letter that means something else. -/
lemma octalDigit?_ne {a x : Char} (ha : octalDigit? a = some v) (hx : octalDigit? x = none) :
    a ≠ x := by
  rintro rfl
  rw [ha] at hx
  cases hx

/-- Up to three octal digits are read, as many as there are. -/
lemma decodeBody_octal (hlength : ds.length ∈ [1, 2, 3]) (hn : Numeral 8 ds n)
    (hrest : ds.length = 3 ∨ ∀ d ∈ rest.head?, octalDigit? d = none) (done : List Char) :
    decodeBody wide done ('\\' :: ds ++ rest) =
      decodeBody wide (Char.ofNat (if wide then n else n % 256) :: done) rest := by
  have hfront {a : Char} {u : Nat} (ha : octalDigit? a = some u) :
      a ≠ '\n' ∧ a ≠ 'x' ∧ a ≠ 'u' ∧ a ≠ 'U' ∧ a ≠ 'N' :=
    ⟨octalDigit?_ne ha (by decide), octalDigit?_ne ha (by decide), octalDigit?_ne ha (by decide),
      octalDigit?_ne ha (by decide), octalDigit?_ne ha (by decide)⟩
  match ds, hlength with
  | [a], _ =>
    have ha := octalDigit?_eq_some_iff.mpr (numeral_one.mp hn)
    have hnone := hrest.resolve_left (by simp)
    obtain ⟨hline, hx, hu, hU, hN⟩ := hfront ha
    rw [List.cons_append, List.singleton_append, decodeBody.eq_def]
    cases rest with
    | nil => simp [*]
    | cons d rest =>
      have hd := hnone d rfl
      simp [*]
  | [a, b], _ =>
    obtain ⟨u, v, ha, hb, rfl⟩ := numeral_two.mp hn
    rw [← octalDigit?_eq_some_iff] at ha hb
    have hnone := hrest.resolve_left (by simp)
    obtain ⟨hline, hx, hu, hU, hN⟩ := hfront ha
    rw [List.cons_append, List.cons_append, List.singleton_append, decodeBody.eq_def]
    cases rest with
    | nil => simp [*]
    | cons d rest =>
      have hd := hnone d rfl
      simp [*]
  | [a, b, d], _ =>
    obtain ⟨u, v, w, ha, hb, hd, rfl⟩ := numeral_three.mp hn
    rw [← octalDigit?_eq_some_iff] at ha hb hd
    obtain ⟨hline, hx, hu, hU, hN⟩ := hfront ha
    rw [List.cons_append, List.cons_append, List.cons_append, List.singleton_append,
      decodeBody.eq_def]
    simp [*]

lemma decodeBody_letter {l : Char} (h : (l, c) ∈ letters) (done rest : List Char) :
    decodeBody wide done ('\\' :: l :: rest) = decodeBody wide (c :: done) rest := by
  rw [decodeBody.eq_def]
  fin_cases h <;> simp [octalDigit?, simpleEscape?]

lemma decodeBody_joined (done rest : List Char) :
    decodeBody wide done ('\\' :: '\n' :: rest) = decodeBody wide done rest := by
  rw [decodeBody.eq_def]
  simp

lemma decodeBody_named (done rest : List Char) :
    decodeBody true done ('\\' :: 'N' :: rest) = none := by
  rw [decodeBody.eq_def]
  simp

/-- A backslash that escapes nothing stays. -/
lemma decodeBody_kept {l : Char} (hline : l ≠ '\n') (hletter : l ∉ letters.map Prod.fst)
    (hcode : l ∉ (codes wide).map Prod.fst) (hname : ¬(wide = true ∧ l = 'N'))
    (hoctal : octalDigit? l = none) (done rest : List Char) :
    decodeBody wide done ('\\' :: l :: rest) = decodeBody wide (l :: '\\' :: done) rest := by
  have hsimple : simpleEscape? l = none := by
    unfold simpleEscape?
    split <;> simp_all [letters]
  rw [decodeBody.eq_def]
  cases wide <;> simp_all [codes]

/-- Reads the body of a raw literal, or of one that is not; what is read already is in `done`. -/
def readBody (raw wide : Bool) (done body : List Char) : Option (List Char) :=
  if raw then some (done.reverse ++ body) else decodeBody wide done body

/-- What is read where some characters are meant: the same, unless a carriage return is in what is
written; then it differs wherever it stands, also in octets. -/
structure Follows (written read chars : List Char) : Prop where
  length_le : chars.length ≤ read.length
  same : '\r' ∉ written → read = chars
  differs : '\r' ∈ written → ∀ {α : Type} (f : Char → α), f '\r' ≠ f '\n' →
    ∀ more value : List Char, value.length ≤ more.length →
      (read ++ more).map f ≠ (chars ++ value).map f

lemma follows_self (h : '\r' ∉ written) (chars : List Char) : Follows written chars chars :=
  ⟨le_rfl, fun _ => rfl, fun h' => absurd h' h⟩

/-- A carriage return is read as it is where a line feed is meant. -/
lemma follows_return (h : '\r' ∈ written) (tail : List Char) :
    Follows written ('\r' :: tail) ['\n'] where
  length_le := by simp
  same h' := absurd h h'
  differs _ α f hf more value _ heq := hf (List.cons.inj heq).1

/-- More is read than what is meant. -/
lemma follows_longer (h : '\r' ∈ written) (hlength : chars.length < read.length) :
    Follows written read chars where
  length_le := hlength.le
  same h' := absurd h h'
  differs _ α f _ more value hvalue heq := by
    have hlengths := congrArg List.length heq
    simp only [List.length_map, List.length_append] at hlengths
    omega

lemma Follows.append {written' read' chars' : List Char} (h : Follows written read chars)
    (h' : Follows written' read' chars') :
    Follows (written ++ written') (read ++ read') (chars ++ chars') where
  length_le := by
    have hle := h.length_le
    have hle' := h'.length_le
    simp only [List.length_append]
    omega
  same hnone := by
    rw [List.mem_append, not_or] at hnone
    rw [h.same hnone.1, h'.same hnone.2]
  differs hmem α f hf more value hvalue heq := by
    have hle' := h'.length_le
    rw [List.append_assoc, List.append_assoc] at heq
    by_cases hfirst : '\r' ∈ written
    · exact h.differs hfirst f hf (read' ++ more) (chars' ++ value)
        (by simp only [List.length_append]; omega) heq
    · have hsecond := (List.mem_append.mp hmem).resolve_left hfirst
      have hsplit (rest : List Char) : (chars ++ rest).map f = chars.map f ++ rest.map f :=
        List.map_append
      rw [h.same hfirst, hsplit, hsplit] at heq
      exact h'.differs hsecond f hf more value hvalue (List.append_cancel_left heq)

/-- Characters without a backslash are read as they are. -/
lemma readBody_plain (h : '\\' ∉ written) (done rest : List Char) :
    readBody raw wide done (written ++ rest) =
      readBody raw wide (written.reverse ++ done) rest := by
  induction written generalizing done with
  | nil => rfl
  | cons c written ih =>
    rw [List.mem_cons, not_or] at h
    have hcons : readBody raw wide done (c :: (written ++ rest)) =
        readBody raw wide (c :: done) (written ++ rest) := by
      cases raw with
      | true => simp [readBody]
      | false => exact decodeBody_plain (Ne.symm h.1) done _
    rw [List.cons_append, hcons, ih h.2, List.reverse_cons, List.append_assoc]
    rfl

lemma readBody_raw (done rest : List Char) :
    readBody true wide done (written ++ rest) =
      readBody true wide (written.reverse ++ done) rest := by
  simp [readBody]

/-- Each element is read as a whole. -/
lemma Element.reads (h : Element raw wide written chars rest) :
    ∃ read, Follows written read chars ∧ ∀ done,
      readBody raw wide done (written ++ rest) = readBody raw wide (read.reverse ++ done) rest := by
  cases h with
  | @itself c _ hline hreturn hslash =>
    refine ⟨[c], follows_self (by simpa using Ne.symm hreturn) _, fun done => ?_⟩
    cases raw with
    | true => exact readBody_raw done rest
    | false => exact readBody_plain (by simpa [eq_comm] using hslash) done rest
  | lineEnd hending =>
    cases hending with
    | feed => exact ⟨['\n'], follows_self (by decide) _, fun done => readBody_plain (by decide) _ _⟩
    | both =>
      exact ⟨['\r', '\n'], follows_return (by decide) _, fun done => readBody_plain (by decide) _ _⟩
    | ret =>
      exact ⟨['\r'], follows_return (by decide) _, fun done => readBody_plain (by decide) _ _⟩
  | joined hraw hending =>
    subst hraw
    have hkept (done rest : List Char) : decodeBody wide done ('\\' :: '\r' :: rest) =
        decodeBody wide ('\r' :: '\\' :: done) rest :=
      decodeBody_kept (by decide) (by decide) (by cases wide <;> decide) (by simp)
        (by decide) done rest
    cases hending with
    | feed => exact ⟨[], follows_self (by decide) _, fun done => decodeBody_joined done rest⟩
    | both =>
      refine ⟨['\\', '\r', '\n'], follows_longer (by decide) (by decide), fun done => ?_⟩
      exact (hkept done _).trans (decodeBody_plain (by decide) _ _)
    | ret => exact ⟨['\\', '\r'], follows_longer (by decide) (by decide), fun done => hkept done _⟩
  | @letter l c _ hraw hl =>
    subst hraw
    have hreturn : '\r' ∉ ['\\', l] := by fin_cases hl <;> decide
    exact ⟨[c], follows_self hreturn _, fun done => decodeBody_letter hl done rest⟩
  | @octal ds _ n c hraw hlength hn hrest hc =>
    subst hraw
    have hnone : ds.length = 3 ∨ ∀ d ∈ rest.head?, octalDigit? d = none :=
      hrest.imp_right fun h d hd => octalDigit?_eq_none_iff.mpr (h d hd)
    have hreturn : '\r' ∉ '\\' :: ds := by
      simpa using hn.not_mem (octalDigit?_eq_none_iff.mp (by decide))
    refine ⟨[c], follows_self hreturn _, fun done => ?_⟩
    have hread : decodeBody wide done ('\\' :: ds ++ rest) =
        decodeBody wide (Char.ofNat (if wide then n else n % 256) :: done) rest :=
      decodeBody_octal hlength hn hnone done
    rwa [← hc, Char.ofNat_toNat] at hread
  | @code mark c ds _ count hraw hmark hlength hn =>
    subst hraw
    have hreturn : '\r' ∉ '\\' :: mark :: ds := by
      have hdigits := hn.not_mem (hexDigit?_eq_none_iff.mp (by decide : hexDigit? '\r' = none))
      rcases mem_codes.mp hmark with ⟨rfl, -⟩ | ⟨-, ⟨rfl, -⟩ | ⟨rfl, -⟩⟩ <;> simpa using hdigits
    refine ⟨[c], follows_self hreturn _, fun done => ?_⟩
    have hread := decodeBody_code hmark done (ds ++ rest)
    rw [if_pos (by simp [hlength]), List.take_left' hlength, List.drop_left' hlength,
      hexChar?_eq_some_iff.mpr hn, Option.bind_some] at hread
    exact hread
  | @kept l _ hraw hl =>
    subst hraw
    simp only [Special, not_or] at hl
    obtain ⟨hline, hreturn, hletter, hcode, hname, hoctal⟩ := hl
    refine ⟨['\\', l], follows_self (by simpa using Ne.symm hreturn) _, fun done => ?_⟩
    exact decodeBody_kept hline hletter hcode hname
      (octalDigit?_eq_none_iff.mpr fun v hv => hoctal ⟨v, hv⟩) done rest

/-- A body that stands for characters is read element by element. -/
lemma Spells.reads (h : Spells raw wide body value) : ∃ read, Follows body read value ∧
    ∀ done, readBody raw wide done body = some (done.reverse ++ read) := by
  induction h with
  | nil =>
    refine ⟨[], follows_self (by simp) _, fun done => ?_⟩
    cases raw <;> simp [readBody, decodeBody]
  | cons helement _ ih =>
    obtain ⟨first, hfirst, hreads⟩ := helement.reads
    obtain ⟨more, hmore, hrest⟩ := ih
    refine ⟨first ++ more, hfirst.append hmore, fun done => ?_⟩
    rw [hreads, hrest]
    simp

/-- Whether each backslash takes a character with it. -/
inductive Paired : List Char → Prop
  | nil : Paired []
  | escaped {c : Char} {rest : List Char} : Paired rest → Paired ('\\' :: c :: rest)
  | plain {c : Char} {rest : List Char} : c ≠ '\\' → Paired rest → Paired (c :: rest)

lemma paired_escaped : Paired ('\\' :: c :: rest) ↔ Paired rest := by
  refine ⟨fun h => ?_, .escaped⟩
  cases h with
  | escaped h => exact h
  | plain hne => exact absurd rfl hne

lemma not_paired_slash : ¬Paired ['\\'] := by
  rintro (_ | _ | ⟨hne, -⟩)
  exact hne rfl

lemma paired_plain (h : c ≠ '\\') : Paired (c :: rest) ↔ Paired rest := by
  refine ⟨fun hp => ?_, .plain h⟩
  cases hp with
  | escaped => exact absurd rfl h
  | plain _ hp => exact hp

/-- Characters without a backslash make no difference. -/
lemma paired_append (h : '\\' ∉ written) : Paired (written ++ rest) ↔ Paired rest := by
  induction written with
  | nil => rfl
  | cons c written ih =>
    rw [List.mem_cons, not_or] at h
    exact (paired_plain (Ne.symm h.1)).trans (ih h.2)

/-- What is behind an element is paired if all is. -/
lemma Element.paired (h : Element false wide written chars rest) (hp : Paired (written ++ rest)) :
    Paired rest := by
  cases h with
  | itself _ _ hslash =>
    exact (paired_append (by simpa [eq_comm] using hslash)).mp hp
  | lineEnd hending =>
    refine (paired_append ?_).mp hp
    cases hending <;> decide
  | joined _ hending =>
    cases hending with
    | feed | ret => exact paired_escaped.mp hp
    | both => exact (paired_append (by decide : '\\' ∉ ['\n'])).mp (paired_escaped.mp hp)
  | letter | kept => exact paired_escaped.mp hp
  | @octal ds _ _ _ _ hlength hn =>
    match ds, hlength with
    | a :: ds, _ =>
      have hdigits := hn.not_mem (octalDigit?_eq_none_iff.mp (by decide : octalDigit? '\\' = none))
      rw [List.mem_cons, not_or] at hdigits
      exact (paired_append hdigits.2).mp (paired_escaped.mp hp)
  | @code mark _ ds _ _ _ _ _ hn =>
    have hdigits := hn.not_mem (hexDigit?_eq_none_iff.mp (by decide : hexDigit? '\\' = none))
    exact (paired_append hdigits).mp (paired_escaped.mp hp)

/-- The octal digits at the front, up to three. -/
lemma exists_octal {a : Char} (ha : octalDigit? a = some v) (rest : List Char) :
    ∃ ds more n, a :: rest = ds ++ more ∧ ds.length ∈ [1, 2, 3] ∧ Numeral 8 ds n ∧
      (ds.length = 3 ∨ ∀ d ∈ more.head?, ∀ v, ¬IsDigit 8 d v) := by
  have hend {d : Char} {more : List Char} (hd : octalDigit? d = none) :
      ∀ x ∈ (d :: more).head?, ∀ v, ¬IsDigit 8 x v := by
    rintro x ⟨⟩
    exact octalDigit?_eq_none_iff.mp hd
  have hfirst := octalDigit?_eq_some_iff.mp ha
  match rest with
  | [] => exact ⟨[a], [], v, rfl, by simp, numeral_one.mpr hfirst, .inr nofun⟩
  | b :: rest =>
    cases hb : octalDigit? b with
    | none => exact ⟨[a], b :: rest, v, rfl, by simp, numeral_one.mpr hfirst, .inr (hend hb)⟩
    | some w =>
      have htwo : Numeral 8 [a, b] (v * 8 + w) :=
        numeral_two.mpr ⟨v, w, hfirst, octalDigit?_eq_some_iff.mp hb, rfl⟩
      match rest with
      | [] => exact ⟨[a, b], [], _, rfl, by simp, htwo, .inr nofun⟩
      | d :: rest =>
        cases hd : octalDigit? d with
        | none => exact ⟨[a, b], d :: rest, _, rfl, by simp, htwo, .inr (hend hd)⟩
        | some u =>
          exact ⟨[a, b, d], rest, _, rfl, by simp, numeral_append.mpr
            ⟨_, u, htwo, octalDigit?_eq_some_iff.mp hd, rfl⟩, .inl rfl⟩

lemma Numeral.lt {base : Nat} (h : Numeral base ds n) (hbase : 1 < base) :
    n < base ^ ds.length := by
  obtain ⟨vs, hvs, rfl⟩ := h
  have hdigits : ∀ v ∈ vs, v < base := by
    generalize ds.reverse = reversed at hvs
    induction hvs with
    | nil => simp
    | cons hv _ ih => exact List.forall_mem_cons.mpr ⟨hv.1, ih⟩
  have hlength : ds.length = vs.length := ds.length_reverse.symm.trans hvs.length_eq
  rw [hlength]
  exact Nat.ofDigits_lt_base_pow_length hbase hdigits

/-- Three octal digits denote the code of a character, also modulo 256. -/
lemma Numeral.exists_char (h : Numeral 8 ds n) (hlength : ds.length ∈ [1, 2, 3]) (wide : Bool) :
    ∃ c : Char, c.toNat = if wide then n else n % 256 := by
  have hpow : (8 : Nat) ^ ds.length ≤ 8 ^ 3 := Nat.pow_le_pow_right (by decide) (by
    simp only [List.mem_cons, List.not_mem_nil, or_false] at hlength
    omega)
  have hlt := (h.lt (by decide)).trans_le hpow
  refine ⟨Char.ofNat (if wide then n else n % 256), toNat_ofNat (.inl ?_)⟩
  split <;> omega

lemma exists_lineEnd (h : c = '\n' ∨ c = '\r') (rest : List Char) :
    ∃ ending more, ending ≠ [] ∧ c :: rest = ending ++ more ∧ LineEnd ending more := by
  obtain rfl | rfl := h
  · exact ⟨['\n'], rest, by simp, rfl, .feed⟩
  · by_cases hfeed : rest.head? = some '\n'
    · obtain ⟨more, rfl⟩ := List.head?_eq_some_iff.mp hfeed
      exact ⟨['\r', '\n'], more, by simp, rfl, .both⟩
    · exact ⟨['\r'], rest, by simp, rfl, .ret hfeed⟩

/-- A backslash begins an escape with the character behind it, or what it begins is not read. -/
lemma exists_escape (l : Char) (rest : List Char) :
    (∃ written chars more, written ≠ [] ∧ '\\' :: l :: rest = written ++ more ∧
      Element false wide written chars more) ∨
      ∀ done, decodeBody wide done ('\\' :: l :: rest) = none := by
  by_cases hend : l = '\n' ∨ l = '\r'
  · obtain ⟨ending, more, -, heq, h⟩ := exists_lineEnd hend rest
    exact .inl ⟨'\\' :: ending, [], more, by simp, by rw [heq]; rfl, .joined rfl h⟩
  by_cases hletter : l ∈ letters.map Prod.fst
  · obtain ⟨⟨_, c⟩, hc, rfl⟩ := List.mem_map.mp hletter
    exact .inl ⟨['\\', _], [c], rest, by simp, rfl, .letter rfl hc⟩
  by_cases hcode : l ∈ (codes wide).map Prod.fst
  · obtain ⟨⟨mark, count⟩, hmark, rfl⟩ := List.mem_map.mp hcode
    by_cases hcount : count ≤ rest.length
    · cases hvalue : hexChar? (rest.take count) with
      | none =>
        refine .inr fun done => ?_
        rw [decodeBody_code hmark, if_pos hcount, hvalue]
        rfl
      | some c =>
        refine .inl ⟨'\\' :: mark :: rest.take count, [c], rest.drop count, by simp, by simp, ?_⟩
        exact .code rfl hmark (by simp [hcount]) (hexChar?_eq_some_iff.mp hvalue)
    · exact .inr fun done => by rw [decodeBody_code hmark, if_neg hcount]
  by_cases hname : wide = true ∧ l = 'N'
  · obtain ⟨rfl, rfl⟩ := hname
    exact .inr fun done => decodeBody_named done rest
  rw [not_or] at hend
  cases hoctal : octalDigit? l with
  | some v =>
    obtain ⟨ds, more, n, heq, hlength, hn, hmore⟩ := exists_octal hoctal rest
    obtain ⟨c, hc⟩ := hn.exists_char hlength wide
    exact .inl ⟨'\\' :: ds, [c], more, by simp, by rw [heq]; rfl, .octal rfl hlength hn hmore hc⟩
  | none =>
    refine .inl ⟨['\\', l], ['\\', l], rest, by simp, rfl, .kept rfl ?_⟩
    rintro (h | h | h | h | h | ⟨v, hv⟩)
    · exact hend.1 h
    · exact hend.2 h
    · exact hletter h
    · exact hcode h
    · exact hname h
    · exact octalDigit?_eq_none_iff.mp hoctal v hv

/-- A body with all backslashes paired begins with an element, or it is not read at all. -/
lemma exists_element (hne : body ≠ []) (hp : raw = false → Paired body) :
    (∃ written chars rest, written ≠ [] ∧ body = written ++ rest ∧
      Element raw wide written chars rest) ∨ ∀ done, readBody raw wide done body = none := by
  match body, hne with
  | c :: rest, _ =>
    by_cases hend : c = '\n' ∨ c = '\r'
    · obtain ⟨ending, more, hnonempty, heq, h⟩ := exists_lineEnd hend rest
      exact .inl ⟨ending, ['\n'], more, hnonempty, heq, .lineEnd h⟩
    rw [not_or] at hend
    by_cases hself : c = '\\' → raw = true
    · exact .inl ⟨[c], [c], rest, by simp, rfl, .itself hend.1 hend.2 hself⟩
    rw [Classical.not_imp, Bool.not_eq_true] at hself
    obtain ⟨rfl, rfl⟩ := hself
    match rest with
    | [] => exact absurd (hp rfl) not_paired_slash
    | l :: rest => exact exists_escape l rest

/-- A body that is read stands for characters. -/
lemma exists_spells (hp : raw = false → Paired body)
    (hread : ∃ done, (readBody raw wide done body).isSome) :
    ∃ value, Spells raw wide body value := by
  induction hlength : body.length using Nat.strongRecOn generalizing body with
  | ind length ih =>
    by_cases hne : body = []
    · subst hne
      exact ⟨[], .nil⟩
    obtain ⟨done, hdone⟩ := hread
    obtain ⟨written, chars, rest, hwritten, rfl, helement⟩ | hnone := exists_element hne hp
    · obtain ⟨read, -, hreads⟩ := helement.reads
      rw [hreads] at hdone
      have hshorter : rest.length < length := by
        have := List.length_pos_iff.mpr hwritten
        rw [List.length_append] at hlength
        omega
      have hrest : raw = false → Paired rest := by
        rintro rfl
        exact helement.paired (hp rfl)
      obtain ⟨value, hvalue⟩ := ih _ hshorter hrest ⟨_, hdone⟩ rfl
      exact ⟨_, .cons helement hvalue⟩
    · rw [hnone] at hdone
      cases hdone

/-- In octets that are written in ASCII each element stands for characters of one octet. -/
lemma Element.toNat_lt (h : Element raw false written chars rest)
    (hascii : ∀ c ∈ written, c.toNat < 0x80) : ∀ c ∈ chars, c.toNat < 0x100 := by
  have hwritten : ∀ c ∈ written, c.toNat < 0x100 := fun c hc => (hascii c hc).trans (by decide)
  cases h with
  | itself | kept => exact hwritten
  | lineEnd => simp
  | joined => simp
  | letter _ hl => fin_cases hl <;> simp
  | octal _ _ _ _ hc =>
    simp only [Bool.false_eq_true, if_false] at hc
    simpa [hc] using Nat.mod_lt _ (by decide)
  | code _ hmark hlength hn =>
    obtain ⟨-, rfl⟩ := (mem_codes.mp hmark).resolve_right (by simp)
    have hlt := hn.lt (by decide)
    rw [hlength] at hlt
    simpa using hlt

lemma Spells.toNat_lt (h : Spells raw false body value) (hascii : ∀ c ∈ body, c.toNat < 0x80) :
    ∀ c ∈ value, c.toNat < 0x100 := by
  induction h with
  | nil => simp
  | cons helement _ ih =>
    rw [List.forall_mem_append] at hascii ⊢
    exact ⟨helement.toNat_lt hascii.1, ih hascii.2⟩

end Unmask.Literal
