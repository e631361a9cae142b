import Unmask.Proofs.ExecTexts
import Unmask.Proofs.Legible.Lists
import Unmask.Proofs.TextParts
import Unmask.Value.Arithmetic

/-!
# Values written out and read back

The text of a value is read as an expression with that value. It is not the expression that was
written: a negative number is read as a number behind a sign. Floats are left out, since the digits
of their texts are another matter.
-/
namespace Unmask
open Cursor Literal

/-- A legible text that binds as strong as a sign is legible behind one. -/
lemma Grammar.legible_minus {s : Nat} {text : List Char} {e : Expr} (h : Legible s text e)
    (hs : 14 ≤ s) : Legible 14 ('-' :: text) (.unary .minus e) where
  toOpening := .of_symbol text (by decide) (by decide)
  low := by decide
  high := by decide
  clean hmem := by
    rcases List.mem_cons.mp hmem with hsign | hmem
    · exact absurd hsign (by decide)
    · exact h.clean hmem
  read f n c tail hn hrest htail htie := by
    obtain ⟨d, rest, hd, hopens⟩ := h.head
    rw [List.length_cons] at hn
    obtain ⟨n, rfl⟩ := Nat.exists_eq_succ_of_ne_zero (show n ≠ 0 by omega)
    have hsign : sign? c = some .minus := by
      have hsymbol : Token.symbol c.rest = ['-'] := by
        rw [hrest, hd]
        exact Token.symbol_append (s := ['-']) (by decide) (not_mem_of_opens hopens) _
      simp [sign?, isSymbol, hsymbol]
    have hnext : Moved c 1 (c.advance 1) (text ++ tail) :=
      (Moved.start hrest).next ['-'] (h.solid tail)
    have hoperand : c.operand? 1 = some (c.advance 1) := operand?_eq (hnext.lineEnd (by decide))
    have hend : (c.advance 1).advance text.length = c.advance ('-' :: text).length := by
      rw [hnext.advance, List.length_cons, Nat.add_comm]
    have hread : (Rules.upTo (n + 1)).unary f (c.advance 1) =
        some (e, c.advance ('-' :: text).length) := by
      rw [← hend] at htie ⊢
      exact h.rule_at (t := 14) (by decide) hs (by omega) hnext.rest htail htie
    simp [rule, unary, hsign, hoperand, hread]

/-- A text that is legible, with no blank around it and no other statement at its front, is read as
an expression. -/
lemma Expr.parse_legible {s : Nat} {source : String} {e : Expr}
    (h : Grammar.Legible s source.toList e)
    (htrim : Text.trimChars source.toList = source.toList)
    (hword : ∀ w ∈ "print" :: Grammar.leaders, Token.word source.toList ≠ w.toList) :
    Expr.parse source = .ok e := by
  have hmodule : Module.parse source = .ok [.expr e] := by
    refine Module.parse_single (k := source.toList.length) h.clean ?_ List.drop_length
      (fun n c hn hrest => ?_) (fun w hw => hword w (List.mem_cons_of_mem _ hw)) ?_
      (hword "print" List.mem_cons_self)
    · have hsolid := h.solid []
      rwa [List.append_nil] at hsolid
    · have hlast := (advance_end (c := c) (n := source.toList.length) (by simp [hrest])).1
      exact h.rule_at (t := 2) (Nat.le_refl 2) h.low (by omega)
        (hrest.trans (List.append_nil _).symm) Apart.nil
        (by rw [Grammar.tie_end hlast]; decide)
    · have hat := h.toOpening.isSymbol_false (c := ⟨source.toList, 0, 0, none, 0, 0⟩)
        (List.append_nil _).symm h.low "@" (by decide) (by decide)
      rw [isSymbol, beq_eq_false_iff_ne] at hat
      exact hat
  unfold Module.parse at hmodule
  rw [Expr.parse, htrim]
  split at hmodule
  · next m hchars =>
    cases hmodule
    rw [hchars]
  · contradiction

namespace Value

mutual

/-- Whether there is a float in a value. -/
def hasFloat : Value → Bool
  | .float _ => true
  | .list items => anyFloat items
  | _ => false

def anyFloat : List Value → Bool
  | [] => false
  | v :: rest => v.hasFloat || anyFloat rest

end

mutual

/-- The expression that the text of a value is read as. -/
def written : Value → Expr
  | .int (.negSucc k) => .unary .minus (.int (k + 1 : Nat))
  | .list items => .list (writtens items)
  | v => v.toExpr

def writtens : List Value → List Expr
  | [] => []
  | v :: rest => v.written :: writtens rest

end

mutual

/-- That expression has the value. -/
lemma ofExpr?_written (v : Value) : ofExpr? v.written = some v := by
  cases v with
  | int n =>
    cases n with
    | ofNat k => rfl
    | negSucc k => rfl
  | list items => rw [written, ofExpr?, ofExprs?_writtens items, Option.map_some]
  | none | bool | float | str | bytes => rfl

lemma ofExprs?_writtens (items : List Value) : ofExprs? (writtens items) = some items := by
  cases items with
  | nil => rfl
  | cons v rest =>
    rw [writtens, ofExprs?, ofExpr?_written v, ofExprs?_writtens rest]
    rfl

end

/-- Digits stand without brackets in every place. -/
lemma number_digits (k : Nat) {context : Level} (h : context ≤ .atom) :
    Printer.number context (digitChars k) = digitChars k := by
  have hminus : (digitChars k).head? ≠ some '-' := by
    intro hhead
    have hmem := mem_digitChars k '-' (List.mem_of_head? hhead)
    exact absurd hmem (by decide)
  have hlevel : (if (digitChars k).head? == some '-' then Level.factor else Level.atom) =
      Level.atom := if_neg (by simpa using hminus)
  rw [Printer.number, hlevel, Printer.wrapped, if_neg (Nat.not_lt.mpr h)]

/-- A natural number is written as its digits. -/
lemma expr_natCast (k : Nat) (context : Level) (h : context ≤ .atom) :
    Printer.expr context (.int k) = digitChars k := by
  have htext : (toString (k : Int)).toList = digitChars k := by
    show (Nat.repr k).toList = _
    simp [Nat.repr, digitChars]
  show Printer.number context (toString (k : Int)).toList = _
  rw [htext, number_digits k h]

/-- A negative number is written as a number behind a sign. -/
lemma expr_negSucc (k : Nat) :
    Printer.expr .test (.int (.negSucc k)) = '-' :: digitChars (k + 1) := by
  have htext : (toString (Int.negSucc k)).toList = '-' :: digitChars (k + 1) := by
    show ("-" ++ Nat.repr (k + 1)).toList = _
    simp [Nat.repr, digitChars]
  show Printer.number .test (toString (Int.negSucc k)).toList = _
  rw [htext]
  rfl

mutual

/-- That expression has the text of the value. -/
lemma expr_written (v : Value) : Printer.expr .test v.written = Printer.expr .test v.toExpr := by
  cases v with
  | int n =>
    cases n with
    | ofNat k => rfl
    | negSucc k =>
      have hdigits := expr_natCast (k + 1) .factor (by decide)
      show Printer.wrapped .factor .test ('-' :: Printer.expr .factor (.int (k + 1 : Nat))) = _
      rw [hdigits]
      exact (expr_negSucc k).symm
  | list items => rw [written, toExpr, Printer.expr, Printer.expr, exprs_writtens items]
  | none | bool | float | str | bytes => rfl

lemma exprs_writtens (items : List Value) :
    Printer.exprs .test (writtens items) = Printer.exprs .test (toExprs items) := by
  cases items with
  | nil => rfl
  | cons v rest =>
    rw [writtens, toExprs, Printer.exprs, Printer.exprs, expr_written v, exprs_writtens rest]

end

mutual

/-- The text of a value is legible. -/
lemma legible_written (v : Value) (h : v.hasFloat = false) :
    ∃ s, Grammar.Legible s (Printer.expr .test v.written) v.written := by
  cases v with
  | none => exact ⟨17, Grammar.legible_value (w := "None") (by simp)⟩
  | bool b =>
    cases b with
    | true => exact ⟨17, Grammar.legible_value (w := "True") (by simp)⟩
    | false => exact ⟨17, Grammar.legible_value (w := "False") (by simp)⟩
  | int n =>
    cases n with
    | ofNat k =>
      have hdigits := expr_natCast k .test (by decide)
      exact ⟨17, hdigits ▸ Grammar.legible_digits k⟩
    | negSucc k =>
      rw [expr_written]
      show ∃ s, Grammar.Legible s (Printer.expr .test (.int (.negSucc k))) _
      rw [expr_negSucc]
      exact ⟨14, Grammar.legible_minus (Grammar.legible_digits (k + 1)) (by decide)⟩
  | float => contradiction
  | str s => exact ⟨17, Grammar.legible_str s⟩
  | bytes b => exact ⟨17, Grammar.legible_bytes b⟩
  | list items => exact ⟨17, Grammar.legible_list (legible_writtens items h)⟩

lemma legible_writtens (items : List Value) (h : anyFloat items = false) :
    ∀ e ∈ writtens items, ∃ s, Grammar.Legible s (Printer.expr .test e) e := by
  cases items with
  | nil => exact fun e he => absurd he List.not_mem_nil
  | cons v rest =>
    have hparts : v.hasFloat = false ∧ anyFloat rest = false := by
      simpa [anyFloat] using h
    intro e he
    rcases List.mem_cons.mp he with rfl | he
    · exact legible_written v hparts.1
    · exact legible_writtens rest hparts.2 e he

end

/-- The words that the text of a value begins with; there is none in front of most texts. -/
def firstWords : List (List Char) := ["", "None", "True", "False", "b"].map String.toList

/-- A text with no blank around it, and with one of these words at its front. -/
structure Compact (text : List Char) : Prop where
  first : ∀ c ∈ text.head?, Text.isBlank c = false
  last : ∀ c ∈ text.getLast?, Text.isBlank c = false
  word : Token.word text ∈ firstWords

/-- Digits, which may have a sign before them. -/
lemma compact_digits (k : Nat) : Compact (digitChars k) ∧ Compact ('-' :: digitChars k) := by
  have hdigits : ∀ d ∈ asciiDigits, Text.isBlank d = false ∧ Text.isIdentifierStart d = false := by
    decide
  obtain ⟨d, rest, hcons⟩ := List.exists_cons_of_ne_nil (digitChars_ne_nil k)
  have hmem : d ∈ asciiDigits := mem_digitChars k d (hcons ▸ List.mem_cons_self)
  have hlast : ∀ c ∈ (digitChars k).getLast?, Text.isBlank c = false := fun c hc =>
    (hdigits c (mem_digitChars k c (List.mem_of_getLast? hc))).1
  constructor
  · refine ⟨?_, hlast, ?_⟩
    · rw [hcons]
      rintro _ ⟨⟩
      exact (hdigits d hmem).1
    · rw [hcons, Grammar.word_nil_of_not_start (hdigits d hmem).2]
      decide
  · refine ⟨?_, ?_, ?_⟩
    · rintro _ ⟨⟩
      decide
    · rw [List.getLast?_cons_of_ne_nil (digitChars_ne_nil k)]
      exact hlast
    · rw [Grammar.word_nil_of_not_start (by decide)]
      decide

/-- A text between two visible characters. -/
lemma Compact.of_ends {c d : Char} (inner : List Char) (hc : Text.isBlank c = false)
    (hd : Text.isBlank d = false) (hword : Token.word (c :: (inner ++ [d])) ∈ firstWords) :
    Compact (c :: (inner ++ [d])) := by
  refine ⟨?_, ?_, hword⟩
  · rintro _ ⟨⟩
    exact hc
  · rw [← List.cons_append, List.getLast?_concat]
    rintro _ ⟨⟩
    exact hd

lemma compact_literal (octets : Bool) {quote : Char} (hquote : isQuote quote) (inner : List Char) :
    Compact (literal octets quote inner) := by
  have hvisible : Text.isBlank quote = false := by
    rcases (Bool.or_eq_true_iff ..).mp hquote with h | h <;> cases beq_iff_eq.mp h <;> decide
  cases octets with
  | false =>
    refine .of_ends inner hvisible hvisible ?_
    rw [Grammar.word_quote hquote]
    decide
  | true =>
    have hword : Token.word ('b' :: (quote :: inner ++ [quote])) = ['b'] := by
      rcases (Bool.or_eq_true_iff ..).mp hquote with h | h <;> cases beq_iff_eq.mp h <;> rfl
    refine .of_ends (quote :: inner) (by decide) hvisible ?_
    rw [hword]
    decide

/-- The text of a value is compact. -/
lemma compact_text (v : Value) (h : v.hasFloat = false) :
    Compact (Printer.expr .test v.toExpr) := by
  cases v with
  | none => exact ⟨by decide, by decide, by decide⟩
  | bool b => cases b <;> exact ⟨by decide, by decide, by decide⟩
  | int n =>
    cases n with
    | ofNat k =>
      have hdigits := expr_natCast k .test (by decide)
      exact hdigits ▸ (compact_digits k).1
    | negSucc k => exact expr_negSucc k ▸ (compact_digits (k + 1)).2
  | float => contradiction
  | str s => exact compact_literal false (isQuote_chooseQuote _ _) _
  | bytes b => exact compact_literal true (isQuote_chooseQuote _ _) _
  | list items =>
    rw [toExpr, Grammar.expr_list]
    refine .of_ends _ (by decide) (by decide) ?_
    rw [Grammar.word_nil_of_not_start (by decide)]
    decide

/-- The text of a value in which there is no float is read as an expression with that value. -/
theorem parse_text (v : Value) (h : v.hasFloat = false) :
    ∃ e, Expr.parse v.toExpr.text = .ok e ∧ ofExpr? e = some v := by
  obtain ⟨s, hlegible⟩ := legible_written v h
  have hcompact := compact_text v h
  have hchars : v.toExpr.text.toList = Printer.expr .test v.toExpr := by
    rw [Expr.text, String.toList_ofList]
  refine ⟨v.written, Expr.parse_legible (s := s) ?_ ?_ ?_, ofExpr?_written v⟩ <;> rw [hchars]
  · rwa [expr_written] at hlegible
  · exact Text.trimChars_eq_self hcompact.first hcompact.last
  · intro w hw heq
    have hfirst := hcompact.word
    rw [heq] at hfirst
    have hall : ∀ w ∈ "print" :: Grammar.leaders, w.toList ∉ firstWords := by decide
    exact hall w hw hfirst

/-- A list with all kinds of values in it but floats. -/
def sample : Value :=
  .list [.int (-12), .list [], .list [.str "it's\r\n", .bool true], .bytes [0x27, 0x00], .none]

theorem parse_sample :
    sample.hasFloat = false ∧
    sample.toExpr.text = "[-12, [], [\"it's\\r\\n\", True], b\"'\\x00\", None]" ∧
    ∃ e, Expr.parse sample.toExpr.text = .ok e ∧ ofExpr? e = some sample :=
  ⟨by decide, by decide +kernel, parse_text sample (by decide)⟩

end Value

end Unmask
