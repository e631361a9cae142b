import Unmask.Proofs.LiteralReading
import Unmask.Proofs.Words
import Unmask.Syntax.Grammar.Statement

/-!
# Legible text

A text is legible as an expression at a binding level if the rule of that level reads the expression
in it, wherever the text stands and whatever follows that the rule does not go on with. How a
legible text begins is known as well, so that it is legible at weaker levels too. Numbers, string
literals and the words with a value are atoms, and an atom is legible.
-/
namespace Unmask.Grammar

section Basic

open Text Literal

/-- The characters that an expression of a level begins with. -/
def opens (s : Nat) (c : Char) : Bool :=
  (isIdentifierStart c && Cursor.isSolid c) ||
    (asciiDigits ++ ['\'', '"', '(', '[', '\x7b', '.']).contains c ||
    (s ≤ 14 && ['-', '+', '~'].contains c)

/-- The words that an expression begins with; no word does so if it begins otherwise. -/
def leads (w : List Char) : Bool :=
  (!Token.isReserved w && w != "await".toList) ||
    ["None", "True", "False"].contains (String.ofList w)

lemma opens_mono {s t : Nat} {c : Char} (hts : t ≤ s) (h : opens s c) : opens t c := by
  simp only [opens, Bool.or_eq_true, Bool.and_eq_true, decide_eq_true_eq] at h ⊢
  exact h.imp_right fun h => ⟨Nat.le_trans hts h.1, h.2⟩

/-- An expression begins with a token. -/
lemma solid_of_opens {s : Nat} {c : Char} (h : opens s c) (cs : List Char) :
    Cursor.Solid (c :: cs) := by
  have hothers : ∀ d ∈ asciiDigits ++ ['\'', '"', '(', '[', '\x7b', '.'] ++ ['-', '+', '~'],
      Cursor.isSolid d = true := by decide
  simp only [opens, Bool.or_eq_true, Bool.and_eq_true, List.contains_iff_mem] at h
  rcases h with (h | h) | h
  · exact h.2
  · exact hothers c (List.mem_append_left _ h)
  · exact hothers c (List.mem_append_right _ h.2)

/-- A symbol in front of an expression does not go on in it. -/
lemma not_mem_of_opens {s : Nat} {c : Char} (h : opens s c) : c ∉ ['=', '*', '>'] := by
  have hothers : ∀ d ∈ ['=', '*', '>'], isIdentifierStart d = false ∧
      (asciiDigits ++ ['\'', '"', '(', '[', '\x7b', '.']).contains d = false ∧
      ['-', '+', '~'].contains d = false := by decide
  intro hmem
  obtain ⟨hstart, hatom, hsign⟩ := hothers c hmem
  rw [opens, hstart, hatom, hsign, Bool.and_false] at h
  contradiction

/-- The symbol at the front begins with the character at the front. -/
lemma isSymbol_false_of_ne {c : Cursor} {d e : Char} {cs ds : List Char} (symbol : String)
    (hrest : c.rest = d :: cs) (hsymbol : symbol.toList = e :: ds) (hne : e ≠ d) :
    c.isSymbol symbol = false := by
  rw [Cursor.isSymbol, beq_eq_false_iff_ne, hrest, hsymbol]
  intro heq
  unfold Token.symbol at heq
  cases hfound : Token.symbols.find? (Token.startsWith · (d :: cs)) with
  | none =>
    rw [hfound] at heq
    cases heq
  | some s =>
    rw [hfound, Option.getD_some] at heq
    have hstarts := List.find?_some hfound
    rw [heq] at hstarts
    obtain ⟨rest, hrest⟩ := Option.isSome_iff_exists.mp hstarts
    have hsplit := afterFront?_eq_some_iff.mp hrest
    exact hne (List.cons.inj hsplit).1.symm

lemma word_nil_of_not_start {d : Char} (h : isIdentifierStart d = false) (cs : List Char) :
    Token.word (d :: cs) = [] := by
  rw [Token.word, h]
  rfl

/-- How a text begins that an expression of a level is read in. -/
structure Opening (s : Nat) (text : List Char) : Prop where
  head : ∃ d rest, text = d :: rest ∧ opens s d
  word : ∀ tail, Apart tail → leads (Token.word (text ++ tail))
  /-- Nothing is bound to a name at the front. -/
  unbound : ∀ (c c' : Cursor) tail id, c.rest = text ++ tail → Apart tail →
    c.name? = some (id, c') → c'.isSymbol ":=" = false

namespace Opening

variable {s : Nat} {text tail : List Char} {f : Frame} {c : Cursor}

lemma length_pos (h : Opening s text) : 0 < text.length := by
  obtain ⟨d, rest, rfl, -⟩ := h.head
  exact Nat.succ_pos _

lemma solid (h : Opening s text) (tail : List Char) : Cursor.Solid (text ++ tail) := by
  obtain ⟨d, rest, rfl, hd⟩ := h.head
  exact solid_of_opens hd _

/-- A text that begins with no word. -/
lemma of_symbol {d : Char} (rest : List Char) (hd : opens s d)
    (hstart : isIdentifierStart d = false) : Opening s (d :: rest) where
  head := ⟨d, rest, rfl, hd⟩
  word tail _ := by
    rw [List.cons_append, word_nil_of_not_start hstart]
    decide
  unbound c c' tail id hrest _ hname := by
    rw [Cursor.name?, Cursor.word, hrest, List.cons_append, word_nil_of_not_start hstart] at hname
    cases hname

/-- A word that no expression begins with does not stand at the front. -/
lemma isWord_false (h : Opening s text) (hrest : c.rest = text ++ tail) (htail : Apart tail)
    (w : String) (hw : leads w.toList = false) : c.isWord w = false := by
  rw [Cursor.isWord, beq_eq_false_iff_ne, Cursor.word, hrest]
  intro heq
  have hword := h.word tail htail
  rw [heq, hw] at hword
  contradiction

/-- A symbol that no expression begins with does not stand at the front. -/
lemma isSymbol_false (h : Opening s text) (hrest : c.rest = text ++ tail) {t : Nat} (hts : t ≤ s)
    (symbol : String) (hsymbol : ∀ d ∈ symbol.toList.head?, opens t d = false)
    (hne : symbol.toList ≠ []) : c.isSymbol symbol = false := by
  obtain ⟨d, rest, rfl, hd⟩ := h.head
  obtain ⟨e, ds, hcons⟩ := List.exists_cons_of_ne_nil hne
  refine isSymbol_false_of_ne symbol hrest hcons ?_
  rintro rfl
  have hclosed := hsymbol e (by rw [hcons]; rfl)
  rw [opens_mono hts hd] at hclosed
  contradiction

/-- The front of such a text is one that weaker rules read through. -/
lemma front (h : Opening s text) (hrest : c.rest = text ++ tail) (htail : Apart tail) :
    Front f s c where
  unsigned hs := by
    have hminus := h.isSymbol_false hrest hs "-" (by decide) (by decide)
    have hplus := h.isSymbol_false hrest hs "+" (by decide) (by decide)
    have hinvert := h.isSymbol_false hrest hs "~" (by decide) (by decide)
    exact ⟨by simp [sign?, hminus, hplus, hinvert], h.isWord_false hrest htail "await" (by decide)⟩
  unnamed _ :=
    ⟨h.isWord_false hrest htail "lambda" (by decide), h.isWord_false hrest htail "not" (by decide),
      fun id c' hname => .inr (h.unbound c c' tail id hrest htail hname)⟩

end Opening

/-- The rule of a level reads an expression in a text, wherever it stands. -/
structure Legible (s : Nat) (text : List Char) (e : Expr) : Prop extends Opening s text where
  low : 2 ≤ s
  high : s ≤ 17
  clean : '\r' ∉ text
  read : ∀ (f : Frame) n (c : Cursor) tail, text.length ≤ n → c.rest = text ++ tail → Apart tail →
    tie f (c.advance text.length) < s →
    rule (Rules.upTo n) f n s c = some (e, c.advance text.length)

namespace Legible

variable {s t n : Nat} {text tail : List Char} {e : Expr} {f : Frame} {c : Cursor}

/-- A legible text is read by the rules of weaker levels too, where nothing follows that they go on
with. -/
lemma rule_at (h : Legible s text e) (hlow : 2 ≤ t) (hts : t ≤ s)
    (hn : text.length ≤ n) (hrest : c.rest = text ++ tail) (htail : Apart tail)
    (htie : tie f (c.advance text.length) < t) :
    rule (Rules.upTo n) f n t c = some (e, c.advance text.length) := by
  have hpos := h.length_pos
  have hread := h.read f n c tail hn hrest htail (by omega)
  obtain ⟨k, rfl⟩ := Nat.exists_eq_succ_of_ne_zero (show n ≠ 0 by omega)
  exact rule_of_le hlow hts h.high (h.toOpening.front hrest htail) hread htie

/-- A legible text stands at the front of what is read as an expression. -/
lemma expr_at (h : Legible s text e) (hn : text.length < n) (hrest : c.rest = text ++ tail)
    (htail : Apart tail) (htie : tie f (c.advance text.length) < 2) :
    (Rules.upTo n).expr f c = some (e, c.advance text.length) := by
  obtain ⟨k, rfl⟩ := Nat.exists_eq_succ_of_ne_zero (show n ≠ 0 by omega)
  exact h.rule_at (Nat.le_refl 2) h.low (by omega) hrest htail htie

end Legible

end Basic

section Constants

open Cursor Literal Text

/-- A text that is read as an atom is legible. -/
lemma Legible.of_atom {text : List Char} {e : Expr} (hopen : Opening 17 text) (hclean : '\r' ∉ text)
    (hatom : ∀ (f : Frame) n (c : Cursor) tail, text.length ≤ n → c.rest = text ++ tail →
      Apart tail → tie f (c.advance text.length) < 17 →
      atom (Rules.upTo n) f n c = some (e, c.advance text.length)) : Legible 17 text e where
  toOpening := hopen
  low := by decide
  high := by decide
  clean := hclean
  read f n c tail hn hrest htail htie := by
    have hread := hatom f n c tail hn hrest htail htie
    have hpos := hopen.length_pos
    obtain ⟨n, rfl⟩ := Nat.exists_eq_succ_of_ne_zero (show n ≠ 0 by omega)
    exact primary_of_atom hread htie

/-- The words with a value. -/
lemma legible_value {w : String} {k : Constant} (h : (w, k) ∈ [("None", Constant.none),
    ("True", .bool true), ("False", .bool false)]) : Legible 17 w.toList (.constant k) := by
  have hw : w ∈ ["None", "True", "False"] := by
    simp only [List.mem_cons, Prod.mk.injEq, List.not_mem_nil, or_false] at h ⊢
    tauto
  have hword : Token.word w.toList = w.toList ∧ w.toList ≠ [] ∧ Token.isReserved w.toList ∧
      '\r' ∉ w.toList ∧ leads w.toList ∧ (∃ d rest, w.toList = d :: rest ∧ opens 17 d ∧
        isIdentifierStart d) := by
    simp only [List.mem_cons, List.not_mem_nil, or_false] at hw
    rcases hw with rfl | rfl | rfl
    · exact ⟨rfl, by decide, by decide, by decide, by decide, 'N', _, rfl, by decide, by decide⟩
    · exact ⟨rfl, by decide, by decide, by decide, by decide, 'T', _, rfl, by decide, by decide⟩
    · exact ⟨rfl, by decide, by decide, by decide, by decide, 'F', _, rfl, by decide, by decide⟩
  obtain ⟨hself, hne, hreserved, hclean, hleads, d, rest, hcons, hopens, hstart⟩ := hword
  have hread {tail : List Char} (htail : Apart tail) :
      Token.word (w.toList ++ tail) = w.toList :=
    Token.word_append hself hne htail.not_continue
  refine .of_atom
    ⟨⟨d, rest, hcons, hopens⟩, fun tail htail => ?_, fun c c' tail id hrest htail h => ?_⟩
    hclean fun f n c tail _ hrest htail _ => ?_
  · rwa [hread htail]
  · rw [name?, Cursor.word, hrest, hread htail, hreserved, Bool.or_true] at h
    cases h
  · have hcursor : c.word = w.toList := by rw [Cursor.word, hrest, hread htail]
    have hafter : c.afterWord = c.advance w.toList.length := by rw [afterWord, hcursor]
    have hsymbol : Token.symbol c.rest = [] := by
      rw [hrest, hcons]
      exact Token.symbol_nil_of_start hstart _
    have hstring : Token.stringStart? c.rest = none := by
      rw [hrest]
      refine Token.stringStart?_none ?_ htail.not_quote htail.not_letter
      simp only [List.mem_cons, List.not_mem_nil, or_false] at hw
      rcases hw with rfl | rfl | rfl <;> decide
    have hnumber : Token.number? c.rest = none := by
      rw [hrest, hcons]
      refine Token.number?_none (not_digit_of_start hstart) ?_ _
      rintro rfl
      contradiction
    simp only [List.mem_cons, Prod.mk.injEq, List.not_mem_nil, or_false] at h
    rcases h with ⟨rfl, rfl⟩ | ⟨rfl, rfl⟩ | ⟨rfl, rfl⟩ <;>
      simp [atom, hstring, hnumber, isSymbol, hsymbol, wordAtom, Cursor.isWord, hcursor, hafter]

/-- A number without a sign. -/
lemma legible_digits (k : Nat) : Legible 17 (digitChars k) (.int k) := by
  have hopens : ∀ d ∈ asciiDigits, opens 17 d ∧ isIdentifierStart d = false ∧ d ≠ '\r' := by decide
  have hpoint : ∀ d ∈ asciiDigits, isQuote d = false ∧ d ≠ '`' := by decide
  obtain ⟨d, rest, hcons⟩ := List.exists_cons_of_ne_nil (digitChars_ne_nil k)
  have hd : d ∈ asciiDigits := mem_digitChars k d (hcons ▸ List.mem_cons_self)
  refine .of_atom ?_ (fun hmem => (hopens _ (mem_digitChars k _ hmem)).2.2 rfl)
    fun f n c tail _ hrest htail _ => ?_
  · rw [hcons]
    exact .of_symbol rest (hopens d hd).1 (hopens d hd).2.1
  · have hstring : Token.stringStart? c.rest = none := by
      rw [hrest]
      refine Token.stringStart?_none (fun d hd => ?_) htail.not_quote htail.not_letter
      simpa using hpoint d (mem_digitChars k d hd)
    have hnumber : Token.number? c.rest = some ((digitChars k).length, false) := by
      rw [hrest, Token.number?_digitChars k htail]
    have htake : c.rest.take (digitChars k).length = digitChars k := by rw [hrest, List.take_left]
    simp [atom, hstring, numberAtom, hnumber, htake, int?_digitChars]
    rfl

lemma opens_quote {quote : Char} (h : isQuote quote) :
    opens 17 quote ∧ isIdentifierStart quote = false := by
  rcases (Bool.or_eq_true_iff ..).mp h with h | h <;> cases beq_iff_eq.mp h <;> decide

/-- A text is legible as its literal. -/
lemma legible_str (s : String) : Legible 17 (quoteChars s.toList) (.str s) := by
  have hquote : isQuote (textQuote s.toList) := isQuote_chooseQuote _ _
  refine .of_atom ?_ (return_not_mem_quoteChars _) fun f n c tail hn hrest _ htie => ?_
  · rw [quoteChars_eq]
    exact .of_symbol _ (opens_quote hquote).1 (opens_quote hquote).2
  · obtain ⟨n, rfl⟩ := Nat.exists_eq_succ_of_ne_zero (show n ≠ 0 by
      have : 0 < (quoteChars s.toList).length := by simp [quoteChars_eq, literal]
      omega)
    exact atom_str hrest (by omega)

/-- Octets are legible as their literal. -/
lemma legible_bytes (b : Bytes) : Legible 17 (quoteByteChars b) (.bytes b) := by
  obtain ⟨quote, more, hchars, hquote⟩ : ∃ quote more, quoteByteChars b = 'b' :: quote :: more ∧
      (quote = '\'' ∨ quote = '"') := by
    refine ⟨octetQuote b, octetInner b ++ [octetQuote b], rfl, ?_⟩
    unfold octetQuote chooseQuote
    split <;> simp
  have hword (tail : List Char) : Token.word ('b' :: quote :: (more ++ tail)) = ['b'] := by
    rcases hquote with rfl | rfl <;> rfl
  refine .of_atom ⟨⟨'b', quote :: more, hchars, by decide⟩, fun tail _ => ?_,
    fun c c' tail id hrest _ hname => ?_⟩ (return_not_mem_quoteByteChars _)
    fun f n c tail hn hrest _ htie => ?_
  · rw [hchars, List.cons_append, List.cons_append, hword]
    decide
  · rw [hchars, List.cons_append, List.cons_append] at hrest
    rw [name?, Cursor.word, hrest, hword] at hname
    obtain rfl : c.advance 1 = c' := congrArg Prod.snd (Option.some.inj hname)
    have hsolid : Solid (quote :: (more ++ tail)) := by rcases hquote with rfl | rfl <;> rfl
    have hmoved := moved_advance (c := c) (n := 1) (by rw [hrest]; rfl) hsolid
    have hsymbol : Token.symbol (c.advance 1).rest = [] := by
      rw [hmoved.rest]
      rcases hquote with rfl | rfl <;> rfl
    simp [isSymbol, hsymbol]
  · obtain ⟨n, rfl⟩ := Nat.exists_eq_succ_of_ne_zero (show n ≠ 0 by
      rw [hchars] at hn
      simp only [List.length_cons] at hn
      omega)
    exact atom_bytes hrest (by omega)

end Constants

end Unmask.Grammar
