import Mathlib.Algebra.Group.Nat.Defs
import Mathlib.Data.List.Induction
import Mathlib.Data.List.TakeWhile
import Mathlib.Tactic.FinCases
import Unmask.Syntax.Token

/-!
# String literals

A text or a row of octets is written as one string literal. Each character is written as a piece
that the tokenizer passes over as a whole and that decodes to the character; the two quotes around
the pieces are then found as the ends of the literal, whatever follows it but another quote.
-/
namespace Unmask.Literal
open Text Token

lemma hexDigit?_digitChar {d : Nat} (h : d < 16) : hexDigit? d.digitChar = some d := by
  revert d
  decide

lemma hexValue?_append (digits : List Char) (c : Char) :
    hexValue? (digits ++ [c]) =
      (hexValue? digits).bind fun n => (hexDigit? c).map (n * 16 + ·) := by
  simp [hexValue?, List.foldl_append]

lemma hexValue?_toDigits (n : Nat) : hexValue? (Nat.toDigits 16 n) = some n := by
  induction n using Nat.strongRecOn with
  | ind n ih =>
    by_cases h : n < 16
    · rw [Nat.toDigits_of_lt_base h]
      simp [hexValue?, hexDigit?_digitChar h]
    · rw [Nat.toDigits_of_base_le (by decide) (Nat.le_of_not_lt h), hexValue?_append,
        ih (n / 16) (by omega), hexDigit?_digitChar (Nat.mod_lt n (by decide))]
      exact congrArg some (Nat.div_add_mod' n 16)

lemma hexValue?_zeros (k : Nat) (digits : List Char) :
    hexValue? (List.replicate k '0' ++ digits) = hexValue? digits := by
  induction k with
  | zero => rfl
  | succ k ih => exact ih

lemma hexValue?_hexPadded (width n : Nat) : hexValue? (hexPadded width n) = some n := by
  rw [hexPadded, hexValue?_zeros, hexValue?_toDigits]

lemma length_hexPadded {width n : Nat} (hpos : 0 < width) (h : n < 16 ^ width) :
    (hexPadded width n).length = width := by
  have hle := (Nat.length_toDigits_le_iff (by decide : 1 < 16) hpos).mpr h
  rw [hexPadded, List.length_append, List.length_replicate]
  omega

lemma isSome_hexDigit?_toDigits (n : Nat) :
    ∀ c ∈ Nat.toDigits 16 n, (hexDigit? c).isSome := by
  induction n using Nat.strongRecOn with
  | ind n ih =>
    by_cases h : n < 16
    · rw [Nat.toDigits_of_lt_base h]
      simp [hexDigit?_digitChar h]
    · rw [Nat.toDigits_of_base_le (by decide) (Nat.le_of_not_lt h)]
      intro c hc
      rcases List.mem_append.mp hc with hc | hc
      · exact ih (n / 16) (by omega) c hc
      · rw [List.mem_singleton.mp hc, hexDigit?_digitChar (Nat.mod_lt n (by decide))]
        rfl

lemma isSome_hexDigit?_hexPadded {width n : Nat} :
    ∀ c ∈ hexPadded width n, (hexDigit? c).isSome := by
  intro c hc
  rcases List.mem_append.mp hc with hc | hc
  · rw [List.eq_of_mem_replicate hc]
    rfl
  · exact isSome_hexDigit?_toDigits n c hc

/-- Padded digits are a run of digits of their full width. -/
lemma hexRun_hexPadded {width n : Nat} (hpos : 0 < width) (h : n < 16 ^ width)
    (rest : List Char) : hexRun width (hexPadded width n ++ rest) = width := by
  have hlen := length_hexPadded hpos h
  have htake : (hexPadded width n ++ rest).take width = hexPadded width n :=
    List.take_left' hlen
  rw [hexRun, htake, List.takeWhile_eq_self_iff.mpr isSome_hexDigit?_hexPadded, hlen]

lemma hexChar?_hexPadded (width : Nat) (c : Char) :
    hexChar? (hexPadded width c.toNat) = some c := by
  have hvalid : c.toNat.isValidChar := c.valid
  rw [hexChar?, hexValue?_hexPadded, Option.bind_some, charOfCode?, if_pos hvalid,
    Char.ofNat_toNat]

/-- A literal of text or octets that is neither raw nor formatted, between single delimiters. -/
def opening (octets : Bool) (quote : Char) : StringStart :=
  ⟨if octets then 2 else 1, false, false, octets, quote, false⟩

lemma body_skip (s : StringStart) (fresh : Bool) (n : Nat) (left rest : List Char) :
    body s left.length fresh n (left ++ rest) = body s 0 fresh (n + left.length) rest := by
  induction left generalizing n with
  | nil => rfl
  | cons c left ih =>
    rw [List.length_cons, List.cons_append, body, ih]
    congr 1
    omega

/-- A piece of a literal stands for a character: it does not begin with the quote, the tokenizer
goes behind it, and it decodes to the character. -/
structure Piece (octets : Bool) (quote : Char) (piece : List Char) (c : Char) : Prop where
  front : ∀ rest, (piece ++ rest).head? ≠ some quote
  steps : ∀ fresh n rest, ∃ fresh',
    body (opening octets quote) 0 fresh n (piece ++ rest) =
      body (opening octets quote) 0 fresh' (n + piece.length) rest
  decodes : ∀ done rest,
    decodeBody (!octets) done (piece ++ rest) = decodeBody (!octets) (c :: done) rest

namespace Piece

variable {octets : Bool} {quote c : Char}

/-- A character that stands for itself. -/
lemma itself (hzero : c ≠ '\x00') (hslash : c ≠ '\\') (hline : c ≠ '\n') (hquote : c ≠ quote) :
    Piece octets quote [c] c where
  front rest h := hquote (Option.some.inj h)
  steps fresh n rest := by
    refine ⟨false, ?_⟩
    rw [List.singleton_append, body.eq_def]
    simp [opening, hzero, hslash, hline, hquote]
  decodes done rest := by
    rw [List.singleton_append, decodeBody]
    · exact fun h => absurd h hslash
    · exact fun _ _ h => absurd h hslash

/-- No escape begins with a quote. -/
lemma front_escape (hquote : isQuote quote) (escape rest : List Char) :
    ('\\' :: escape ++ rest).head? ≠ some quote := by
  rintro ⟨⟩
  contradiction

/-- An escape is passed over if its length is told right. -/
lemma steps_escape (x : Char) (more : List Char) (hx : octets → x ∉ ['N', 'u', 'U'])
    (hlen : ∀ rest, escapeLength (x :: more ++ rest) = more.length + 1) (fresh : Bool) (n : Nat)
    (rest : List Char) :
    ∃ fresh', body (opening octets quote) 0 fresh n ('\\' :: x :: more ++ rest) =
      body (opening octets quote) 0 fresh' (n + ('\\' :: x :: more).length) rest := by
  refine ⟨true, ?_⟩
  have hbody : body (opening octets quote) 0 fresh n ('\\' :: x :: more ++ rest) =
      body (opening octets quote) (escapeLength (x :: more ++ rest)) true (n + 1)
        (x :: more ++ rest) := by
    rw [List.cons_append, body.eq_def]
    cases octets with
    | false => simp [opening]
    | true =>
      have hx := hx rfl
      simp only [List.mem_cons, List.not_mem_nil, or_false, not_or] at hx
      simp [opening, hx]
  have hskip := body_skip (opening octets quote) true (n + 1) (x :: more) rest
  rw [List.length_cons] at hskip
  rw [hbody, hlen, hskip, List.length_cons, List.length_cons]
  congr 1
  omega

/-- A letter after a backslash. -/
lemma letter (hquote : isQuote quote) {x : Char} (hx : x ∈ ['\\', '\'', '"', 'n', 'r', 't'])
    (hc : simpleEscape? x = some c) : Piece octets quote ['\\', x] c where
  front := front_escape hquote _
  steps := by
    refine steps_escape x [] (fun _ => ?_) (fun rest => ?_)
    · fin_cases hx <;> decide
    · fin_cases hx <;> rfl
  decodes done rest := by
    rw [List.cons_append, List.cons_append, decodeBody.eq_def]
    fin_cases hx <;> cases hc <;> simp [octalDigit?, simpleEscape?]

/-- A code of two digits after a backslash. -/
lemma code (hquote : isQuote quote) (hc : c.toNat < 0x100) :
    Piece octets quote ('\\' :: 'x' :: hexPadded 2 c.toNat) c where
  front := front_escape hquote _
  steps := by
    have hlen := length_hexPadded (by decide : 0 < 2) hc
    refine steps_escape 'x' _ (fun _ => by decide) (fun rest => ?_)
    have hrun := hexRun_hexPadded (by decide : 0 < 2) hc rest
    simp [escapeLength, hrun, hlen]
  decodes done rest := by
    have hchar := hexChar?_hexPadded 2 c
    match hexPadded 2 c.toNat, length_hexPadded (by decide : 0 < 2) hc, hchar with
    | [_, _], _, hchar => simp [decodeBody, hchar]

/-- A code of four digits after a backslash, in text. -/
lemma wideCode (hquote : isQuote quote) (hc : c.toNat < 0x10000) :
    Piece false quote ('\\' :: 'u' :: hexPadded 4 c.toNat) c where
  front := front_escape hquote _
  steps := by
    have hlen := length_hexPadded (by decide : 0 < 4) hc
    refine steps_escape 'u' _ (fun h => absurd h (by decide)) (fun rest => ?_)
    have hrun := hexRun_hexPadded (by decide : 0 < 4) hc rest
    simp [escapeLength, hrun, hlen]
  decodes done rest := by
    have hchar := hexChar?_hexPadded 4 c
    match hexPadded 4 c.toNat, length_hexPadded (by decide : 0 < 4) hc, hchar with
    | [_, _, _, _], _, hchar => simp [decodeBody, hchar]

/-- A code of eight digits after a backslash, in text. -/
lemma longCode (hquote : isQuote quote) :
    Piece false quote ('\\' :: 'U' :: hexPadded 8 c.toNat) c where
  front := front_escape hquote _
  steps := by
    have hc : c.toNat < 16 ^ 8 := c.val.toNat_lt
    have hlen := length_hexPadded (by decide : 0 < 8) hc
    refine steps_escape 'U' _ (fun h => absurd h (by decide)) (fun rest => ?_)
    have hrun := hexRun_hexPadded (by decide : 0 < 8) hc rest
    simp [escapeLength, hrun, hlen]
  decodes done rest := by
    have hc : c.toNat < 16 ^ 8 := c.val.toNat_lt
    have hchar := hexChar?_hexPadded 8 c
    match hexPadded 8 c.toNat, length_hexPadded (by decide : 0 < 8) hc, hchar with
    | [_, _, _, _, _, _, _, _], _, hchar => simp [decodeBody, hchar]

end Piece

lemma piece_escapeCode {quote : Char} (hquote : isQuote quote) (c : Char) :
    Piece false quote (escapeCode c) c := by
  unfold escapeCode
  dsimp only
  split_ifs with htwo hfour
  · exact .code hquote htwo
  · exact .wideCode hquote hfour
  · exact .longCode hquote

/-- A quote stands for itself behind a backslash. -/
lemma piece_quote {octets : Bool} {quote : Char} (hquote : isQuote quote) :
    Piece octets quote ['\\', quote] quote := by
  rcases (Bool.or_eq_true_iff ..).mp hquote with h | h
  · cases beq_iff_eq.mp h
    exact .letter hquote (by decide) rfl
  · cases beq_iff_eq.mp h
    exact .letter hquote (by decide) rfl

/-- A character of a text is written as a piece that stands for it. -/
lemma piece_escapeChar {quote : Char} (hquote : isQuote quote) (c : Char) :
    Piece false quote (escapeChar quote c) c := by
  unfold escapeChar
  simp only [beq_iff_eq]
  split_ifs with hslash hline hreturn htab hc hprint
  · subst hslash
    exact .letter hquote (by decide) rfl
  · subst hline
    exact .letter hquote (by decide) rfl
  · subst hreturn
    exact .letter hquote (by decide) rfl
  · subst htab
    exact .letter hquote (by decide) rfl
  · subst hc
    exact piece_quote hquote
  · refine .itself ?_ hslash hline hc
    rintro rfl
    exact absurd hprint (by decide)
  · exact piece_escapeCode hquote c

/-- The character with the code of an octet. -/
lemma toNat_ofNat_octet (b : UInt8) : (Char.ofNat b.toNat).toNat = b.toNat := by
  have hlt := b.toNat_lt
  rw [Char.ofNat, dif_pos (.inl (by omega))]
  rfl

/-- An octet is written as a piece that stands for the character with its code. -/
lemma piece_escapeByte {quote : Char} (hquote : isQuote quote) (b : UInt8) :
    Piece true quote (escapeByte quote b) (Char.ofNat b.toNat) := by
  have hcode := toNat_ofNat_octet b
  unfold escapeByte
  simp only [beq_iff_eq]
  split_ifs with hslash hline hreturn htab hc hprint
  · rw [hslash]
    exact .letter hquote (by decide) rfl
  · rw [hline]
    exact .letter hquote (by decide) rfl
  · rw [hreturn]
    exact .letter hquote (by decide) rfl
  · rw [htab]
    exact .letter hquote (by decide) rfl
  · rw [hc]
    exact piece_quote hquote
  · refine .itself ?_ hslash hline hc
    intro hzero
    rw [hzero] at hcode
    have hle : 0x20 ≤ b.toNat := by
      have := (Bool.and_eq_true_iff.mp hprint).1
      exact UInt8.le_iff_toNat_le.mp (of_decide_eq_true this)
    have : (0 : Nat) = b.toNat := hcode
    omega
  · have hpiece : Piece true quote _ (Char.ofNat b.toNat) :=
      .code hquote (hcode.trans_lt b.toNat_lt)
    rwa [hcode] at hpiece

lemma length_le_octetCount (cs : List Char) : cs.length ≤ octetCount cs := by
  induction cs using List.reverseRecOn with
  | nil => exact Nat.le_refl 0
  | append_singleton cs c ih =>
    have hpos := c.utf8Size_pos
    simp only [octetCount, List.foldl_append, List.foldl_cons, List.foldl_nil,
      List.length_append, List.length_cons, List.length_nil] at ih ⊢
    omega

section Rows

variable {α : Type} {octets : Bool} {quote : Char} {piece : α → List Char} {char : α → Char}

lemma body_pieces (hpiece : ∀ a, Piece octets quote (piece a) (char a)) (items : List α)
    (fresh : Bool) (n : Nat) (rest : List Char) :
    ∃ fresh', body (opening octets quote) 0 fresh n (items.flatMap piece ++ rest) =
      body (opening octets quote) 0 fresh' (n + (items.flatMap piece).length) rest := by
  induction items generalizing fresh n with
  | nil => exact ⟨fresh, rfl⟩
  | cons a items ih =>
    rw [List.flatMap_cons, List.append_assoc, List.length_append]
    obtain ⟨fresh₁, hfirst⟩ := (hpiece a).steps fresh n (items.flatMap piece ++ rest)
    obtain ⟨fresh₂, hmore⟩ := ih fresh₁ (n + (piece a).length)
    exact ⟨fresh₂, by rw [hfirst, hmore, Nat.add_assoc]⟩

lemma decodeBody_pieces (hpiece : ∀ a, Piece octets quote (piece a) (char a)) (items : List α)
    (done : List Char) :
    decodeBody (!octets) done (items.flatMap piece) = some (done.reverse ++ items.map char) := by
  induction items generalizing done with
  | nil => rw [List.flatMap_nil, decodeBody, List.map_nil, List.append_nil]
  | cons a items ih => rw [List.flatMap_cons, (hpiece a).decodes, ih]; simp

/-- The tokenizer finds the end of a row of pieces at the quote behind it. -/
lemma body_closed (hquote : isQuote quote) (hpiece : ∀ a, Piece octets quote (piece a) (char a))
    (items : List α) (rest : List Char) :
    body (opening octets quote) 0 true 0 (items.flatMap piece ++ quote :: rest) =
      .closed ((items.flatMap piece).length + 1) := by
  obtain ⟨fresh, hpieces⟩ := body_pieces hpiece items true 0 (quote :: rest)
  have hsolid : quote ≠ '\x00' ∧ quote ≠ '\\' := by
    constructor <;> rintro rfl <;> exact absurd hquote (by decide)
  rw [hpieces, body.eq_def]
  simp [opening, hsolid]

/-- A row of pieces does not begin with the quote unless it is empty. -/
lemma head?_pieces (hpiece : ∀ a, Piece octets quote (piece a) (char a)) (items : List α)
    (hitems : items ≠ []) (rest : List Char) :
    (items.flatMap piece ++ rest).head? ≠ some quote := by
  match items, hitems with
  | a :: items, _ =>
    rw [List.flatMap_cons, List.append_assoc]
    exact (hpiece a).front _

/-- A literal between single delimiters. -/
def literal (octets : Bool) (quote : Char) (inner : List Char) : List Char :=
  (if octets then ['b'] else []) ++ quote :: inner ++ [quote]

/-- The quote that ends a row of pieces is not one of three. -/
lemma pieces_ne_triple (hpiece : ∀ a, Piece octets quote (piece a) (char a)) (items : List α)
    (rest tail : List Char) (hrest : rest.head? ≠ some quote) :
    items.flatMap piece ++ quote :: rest ≠ quote :: quote :: tail := by
  intro htext
  by_cases hitems : items = []
  · subst hitems
    have : rest = quote :: tail := (List.cons.inj htext).2
    exact hrest (this ▸ rfl)
  · exact head?_pieces hpiece items hitems _ (by rw [htext]; rfl)

/-- A row of pieces between quotes begins as a literal of its kind, unless a quote follows. -/
lemma stringStart?_literal (hquote : isQuote quote)
    (hpiece : ∀ a, Piece octets quote (piece a) (char a)) (items : List α) {rest : List Char}
    (hrest : rest.head? ≠ some quote) :
    stringStart? (literal octets quote (items.flatMap piece) ++ rest) =
      some (opening octets quote) := by
  have hletter : isPrefixLetter quote = false := by
    rcases (Bool.or_eq_true_iff ..).mp hquote with h | h <;> cases beq_iff_eq.mp h <;> rfl
  have hsingle : startsWith [quote, quote] (items.flatMap piece ++ quote :: rest) = false := by
    rw [startsWith, Option.isSome_eq_false_iff, Option.isNone_iff_eq_none,
      Option.eq_none_iff_forall_ne_some]
    exact fun tail h => pieces_ne_triple hpiece items rest tail hrest (afterFront?_eq_some_iff.mp h)
  cases octets <;>
    simp [literal, stringStart?, opening, hletter, hquote, hsingle, List.takeWhile, List.dropWhile,
      show isPrefixLetter 'b' = true from rfl, show asciiLower 'b' = 'b' from rfl]

/-- What stands between the quotes of a row of pieces is the row. -/
lemma body?_pieces (hquote : isQuote quote) (hpiece : ∀ a, Piece octets quote (piece a) (char a))
    (items : List α) :
    body? (quote :: items.flatMap piece ++ [quote]) = some (items.flatMap piece) := by
  have htriple : afterFront? [quote, quote, quote] (quote :: items.flatMap piece ++ [quote]) =
      none := by
    rw [Option.eq_none_iff_forall_ne_some]
    intro tail htail
    have htext := (List.cons.inj (afterFront?_eq_some_iff.mp htail)).2
    exact pieces_ne_triple hpiece items [] tail (by simp) htext
  have hroom : 2 ≤ octetCount (quote :: items.flatMap piece ++ [quote]) := by
    have hlen := length_le_octetCount (quote :: items.flatMap piece ++ [quote])
    simp only [List.length_append, List.length_cons, List.length_nil] at hlen
    omega
  have hstrip : stripBack? [quote] (items.flatMap piece ++ [quote]) =
      some (items.flatMap piece) := by
    simp [stripBack?, afterFront?]
  rcases (Bool.or_eq_true_iff ..).mp hquote with h | h <;> cases beq_iff_eq.mp h <;>
    simp_all [body?, afterFront?]

/-- A row of pieces between quotes is read as the characters that the pieces stand for. -/
lemma decode?_literal (hquote : isQuote quote)
    (hpiece : ∀ a, Piece octets quote (piece a) (char a)) (items : List α)
    (hascii : octets → ∀ c ∈ items.flatMap piece, c.toNat < 0x80) :
    StringLiteral.decode? (literal octets quote (items.flatMap piece)) =
      some (if octets then .bytes (narrow (items.map char))
        else .text (String.ofList (items.map char))) := by
  have hend : (!isQuote quote) = false := by rw [hquote]; rfl
  have hletter : (!isQuote 'b') = true := rfl
  have hflags : (literal octets quote (items.flatMap piece)).takeWhile (!isQuote ·) =
      if octets then ['b'] else [] := by
    cases octets <;> simp [literal, List.takeWhile, hend, hletter]
  have hquoted : (literal octets quote (items.flatMap piece)).dropWhile (!isQuote ·) =
      quote :: items.flatMap piece ++ [quote] := by
    cases octets <;> simp [literal, List.dropWhile, hend, hletter]
  have hdecode := decodeBody_pieces hpiece items []
  unfold StringLiteral.decode?
  rw [hflags, hquoted, body?_pieces hquote hpiece items]
  cases octets with
  | false =>
    rw [show (!false) = true from rfl] at hdecode
    simp [hdecode]
  | true =>
    rw [show (!true) = false from rfl] at hdecode
    have hlower : asciiLower 'b' = 'b' := rfl
    simpa [hdecode, hlower] using
      fun c a ha hc => hascii rfl c (List.mem_flatMap.mpr ⟨a, ha, hc⟩)

end Rows

lemma isQuote_chooseQuote (single double : Bool) : isQuote (chooseQuote single double) := by
  revert single double
  decide

/-- The quote around a text. -/
def textQuote (cs : List Char) : Char := chooseQuote (cs.contains '\'') (cs.contains '"')

/-- The characters between the quotes of a text. -/
def textInner (cs : List Char) : List Char := cs.flatMap (escapeChar (textQuote cs))

lemma quoteChars_eq (cs : List Char) :
    quoteChars cs = literal false (textQuote cs) (textInner cs) := rfl

/-- A literal that the tokenizer finds, whatever follows it but another quote, and that has a
value. -/
structure Written (octets : Bool) (quote : Char) (inner : List Char) (value : StringLiteral) :
    Prop where
  quoted : isQuote quote
  starts : ∀ rest : List Char, rest.head? ≠ some quote →
    stringStart? (literal octets quote inner ++ rest) = some (opening octets quote)
  closes : ∀ rest, body (opening octets quote) 0 true 0 (inner ++ quote :: rest) =
    .closed (inner.length + 1)
  decodes : StringLiteral.decode? (literal octets quote inner) = some value

/-- A text is read as it was, whichever of the two quotes it is written between. -/
lemma decode?_escapeChars {quote : Char} (hquote : isQuote quote) (cs : List Char) :
    StringLiteral.decode? (literal false quote (cs.flatMap (escapeChar quote))) =
      some (.text (String.ofList cs)) := by
  have hread := decode?_literal hquote (piece_escapeChar hquote) cs (fun h => absurd h (by decide))
  rwa [List.map_id'] at hread

/-- A text is written as a literal with the text as its value. -/
lemma written_text (cs : List Char) :
    Written false (textQuote cs) (textInner cs) (.text (String.ofList cs)) := by
  have hquote : isQuote (textQuote cs) := isQuote_chooseQuote _ _
  have hpiece := piece_escapeChar hquote
  exact ⟨hquote, fun _ => stringStart?_literal hquote hpiece cs, body_closed hquote hpiece cs,
    decode?_escapeChars hquote cs⟩

/-- A text written as a literal is read as the same text. -/
theorem decode?_quoteChars (cs : List Char) :
    StringLiteral.decode? (quoteChars cs) = some (.text (String.ofList cs)) :=
  (written_text cs).decodes

/-- The quote around octets. -/
def octetQuote (bytes : Bytes) : Char := chooseQuote (bytes.contains 0x27) (bytes.contains 0x22)

/-- The characters between the quotes of octets. -/
def octetInner (bytes : Bytes) : List Char := bytes.flatMap (escapeByte (octetQuote bytes))

lemma quoteByteChars_eq (bytes : Bytes) :
    quoteByteChars bytes = literal true (octetQuote bytes) (octetInner bytes) := rfl

lemma ascii_hexDigit {c : Char} (h : (hexDigit? c).isSome) : c.toNat < 0x80 := by
  have hle (d : Char) (hd : c ≤ d) : c.toNat ≤ d.toNat := UInt32.le_iff_toNat_le.mp hd
  unfold hexDigit? isAsciiDigit at h
  simp only [Bool.and_eq_true, decide_eq_true_eq] at h
  split_ifs at h with hdigit hlower hupper
  · exact (hle _ hdigit.2).trans_lt (by decide)
  · exact (hle _ hlower.2).trans_lt (by decide)
  · exact (hle _ hupper.2).trans_lt (by decide)
  · exact absurd h (by decide)

/-- Octets are written in ASCII. -/
lemma ascii_escapeByte {quote : Char} (hquote : isQuote quote) (b : UInt8) :
    ∀ c ∈ escapeByte quote b, c.toNat < 0x80 := by
  have hascii : quote.toNat < 0x80 := by
    rcases (Bool.or_eq_true_iff ..).mp hquote with h | h <;> cases beq_iff_eq.mp h <;> decide
  unfold escapeByte
  simp only [beq_iff_eq]
  split_ifs with hslash hline hreturn htab hc hprint
  · simp
  · simp
  · simp
  · simp
  · simpa using hascii
  · have hle := UInt8.le_iff_toNat_le.mp (of_decide_eq_true (Bool.and_eq_true_iff.mp hprint).2)
    have hlt : b.toNat < 0x80 := lt_of_le_of_lt hle (by decide)
    simpa [toNat_ofNat_octet] using hlt
  · intro c hc
    rcases List.mem_cons.mp hc with rfl | hc
    · decide
    rcases List.mem_cons.mp hc with rfl | hc
    · decide
    · exact ascii_hexDigit (isSome_hexDigit?_hexPadded c hc)

/-- Octets are read as they were, whichever of the two quotes they are written between. -/
lemma decode?_escapeBytes {quote : Char} (hquote : isQuote quote) (bytes : Bytes) :
    StringLiteral.decode? (literal true quote (bytes.flatMap (escapeByte quote))) =
      some (.bytes bytes) := by
  have hascii : ∀ c ∈ bytes.flatMap (escapeByte quote), c.toNat < 0x80 := by
    intro c hc
    obtain ⟨b, -, hb⟩ := List.mem_flatMap.mp hc
    exact ascii_escapeByte hquote b c hb
  have hread := decode?_literal hquote (piece_escapeByte hquote) bytes (fun _ => hascii)
  have hnarrow : narrow (bytes.map fun b => Char.ofNat b.toNat) = bytes := by
    rw [narrow, List.map_map]
    refine (List.map_congr_left fun b _ => ?_).trans (List.map_id bytes)
    simp [toNat_ofNat_octet]
  rwa [if_pos rfl, hnarrow] at hread

/-- Octets are written as a literal with the octets as its value. -/
lemma written_octets (bytes : Bytes) :
    Written true (octetQuote bytes) (octetInner bytes) (.bytes bytes) := by
  have hquote : isQuote (octetQuote bytes) := isQuote_chooseQuote _ _
  have hpiece := piece_escapeByte hquote
  exact ⟨hquote, fun _ => stringStart?_literal hquote hpiece bytes,
    body_closed hquote hpiece bytes, decode?_escapeBytes hquote bytes⟩

/-- Octets written as a literal are read as the same octets. -/
theorem decode?_quoteByteChars (bytes : Bytes) :
    StringLiteral.decode? (quoteByteChars bytes) = some (.bytes bytes) :=
  (written_octets bytes).decodes

/-- Any text and any octets are read as they were written, whatever is in them; and so they would
be if the quote were chosen for other text. -/
theorem decode?_quoted (s : String) (bytes : Bytes) :
    StringLiteral.decode? (quoteText s).toList = some (.text s) ∧
    StringLiteral.decode? (quoteBytes bytes).toList = some (.bytes bytes) ∧
    ∀ hasSingle hasDouble,
      let quote := chooseQuote hasSingle hasDouble
      StringLiteral.decode? (quote :: s.toList.flatMap (escapeChar quote) ++ [quote]) =
        some (.text s) ∧
      StringLiteral.decode? ('b' :: quote :: bytes.flatMap (escapeByte quote) ++ [quote]) =
        some (.bytes bytes) := by
  refine ⟨?_, ?_, fun hasSingle hasDouble => ?_⟩
  · rw [quoteText, String.toList_ofList, decode?_quoteChars, String.ofList_toList]
  · rw [quoteBytes, String.toList_ofList, decode?_quoteByteChars]
  · have hquote : isQuote (chooseQuote hasSingle hasDouble) := isQuote_chooseQuote _ _
    have htext := decode?_escapeChars hquote s.toList
    rw [String.ofList_toList] at htext
    exact ⟨htext, decode?_escapeBytes hquote bytes⟩

lemma return_not_mem_hexPadded (width n : Nat) : '\r' ∉ hexPadded width n := fun h =>
  absurd (isSome_hexDigit?_hexPadded _ h) (by decide)

lemma chooseQuote_ne_return (hasSingle hasDouble : Bool) :
    '\r' ≠ chooseQuote hasSingle hasDouble := by
  unfold chooseQuote
  split <;> decide

lemma return_not_mem_quoteChars (cs : List Char) : '\r' ∉ quoteChars cs := by
  have hquote : '\r' ≠ textQuote cs := chooseQuote_ne_return _ _
  have hchar (c : Char) : '\r' ∉ escapeChar (textQuote cs) c := by
    unfold escapeChar escapeCode
    simp only [beq_iff_eq]
    split_ifs with hslash hline hreturn htab hc hprint hshort hwide
    · decide
    · decide
    · decide
    · decide
    · simp [Ne.symm hreturn]
    · simp [Ne.symm hreturn]
    · simp [return_not_mem_hexPadded]
    · simp [return_not_mem_hexPadded]
    · simp [return_not_mem_hexPadded]
  rw [quoteChars_eq]
  simp [literal, textInner, hquote, hchar]

lemma return_not_mem_quoteByteChars (bytes : Bytes) : '\r' ∉ quoteByteChars bytes := by
  have hquote : '\r' ≠ octetQuote bytes := chooseQuote_ne_return _ _
  have hbyte (b : UInt8) : '\r' ∉ escapeByte (octetQuote bytes) b := by
    unfold escapeByte
    simp only [beq_iff_eq]
    split_ifs with hslash hline hreturn htab hc hprint
    · decide
    · decide
    · decide
    · decide
    · simp [hquote]
    · simp [Ne.symm hreturn]
    · simp [return_not_mem_hexPadded]
  rw [quoteByteChars_eq]
  simp [literal, octetInner, hquote, hbyte]

end Unmask.Literal
