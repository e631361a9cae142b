import Mathlib.Tactic.IntervalCases
import Unmask.Proofs.Gaps
import Unmask.Proofs.StringLiterals
import Unmask.Syntax.Grammar.Expression
import Unmask.Syntax.Printer

/-!
# Rules of the grammar by binding level

The rules of expressions form a chain: each one reads what the next stronger one reads and goes on
while its own operator follows. Where nothing follows that a rule goes on with, it reads what the
stronger rules read. The literal of a text stands in a program as an atom: the grammar goes behind
it and finds its value, whatever follows it but another literal.
-/
namespace Unmask

/-- The binding level at which the grammar reads an operator: `^` binds stronger there than `&`,
other than the levels at which trees are written. -/
def BinaryOp.strength : BinaryOp → Nat
  | .pow => 15
  | .mult | .matMult | .div | .mod | .floorDiv => 13
  | .add | .sub => 12
  | .shiftLeft | .shiftRight => 11
  | .bitXor => 10
  | .bitAnd => 9
  | .bitOr => 8

namespace Grammar

/-- The rule that reads expressions of a binding level and stronger ones. -/
def rule (g : Rules) (f : Frame) (n : Nat) : Nat → Rule Expr
  | 0 | 1 | 2 => expr g f n
  | 3 => conditional g f n
  | 4 => disjunction g f n
  | 5 => conjunction g f n
  | 6 => inversion g f n
  | 7 => comparison g f n
  | 8 => bitOr g f n
  | 9 => bitAnd g f n
  | 10 => bitXor g f n
  | 11 => shift g f n
  | 12 => arith g f n
  | 13 => term g f n
  | 14 => unary g f n
  | 15 => power g f n
  | _ => primary g f n

/-- The level of the rule that goes on with a symbol. No rule goes on with a walrus, but it makes
the name before it something else. -/
def symbolTie (symbol : List Char) : Nat :=
  match symbol with
  | [':', '='] => 18
  | ['.'] | ['['] | ['('] => 17
  | ['*', '*'] => 15
  | ['*'] | ['@'] | ['/'] | ['%'] | ['/', '/'] => 13
  | ['+'] | ['-'] => 12
  | ['<', '<'] | ['>', '>'] => 11
  | ['^'] => 10
  | ['&'] => 9
  | ['|'] => 8
  | ['<'] | ['>'] | ['=', '='] | ['<', '='] | ['>', '='] | ['!', '='] | ['<', '>'] => 7
  | _ => 0

/-- The level of the rule that goes on with a word. -/
def wordTie (ternary : Bool) (word : List Char) : Nat :=
  match word with
  | ['i', 'n'] | ['i', 's'] | ['n', 'o', 't'] => 7
  | ['a', 'n', 'd'] => 5
  | ['o', 'r'] => 4
  | ['i', 'f'] => if ternary then 3 else 0
  | ['a', 's'] => 2
  | _ => 0

/-- The strongest rule that goes on with what stands at a place: `0` if an expression ends before
it, and more than there are rules if a string literal stands there. -/
def tie (f : Frame) (c : Cursor) : Nat :=
  if f.stops c then 0
  else if (Token.stringStart? c.rest).isSome then 18
  else max (symbolTie (Token.symbol c.rest)) (wordTie f.ternary c.word)

section Stops

variable {f : Frame} {c : Cursor}

lemma symbolTie_le (h : f.stops c = false) : symbolTie (Token.symbol c.rest) ≤ tie f c := by
  rw [tie, h, if_neg (by decide)]
  split
  · unfold symbolTie
    split <;> decide
  · exact Nat.le_max_left _ _

lemma wordTie_le (h : f.stops c = false) : wordTie f.ternary c.word ≤ tie f c := by
  rw [tie, h, if_neg (by decide)]
  split
  · unfold wordTie
    split <;> (try split) <;> decide
  · exact Nat.le_max_right _ _

/-- A symbol that goes on with more than follows does not stand there. -/
lemma isSymbol_false (symbol : String) {s : Nat} (htie : tie f c < s)
    (hstops : f.stops c = false) (hsymbol : s ≤ symbolTie symbol.toList) :
    c.isSymbol symbol = false := by
  rw [Cursor.isSymbol, beq_eq_false_iff_ne]
  intro h
  exact absurd htie (Nat.not_lt.mpr (Nat.le_trans (h ▸ hsymbol) (symbolTie_le hstops)))

/-- A word that goes on with more than follows does not stand there. -/
lemma isWord_false (word : String) {s : Nat} (htie : tie f c < s) (hstops : f.stops c = false)
    (hword : s ≤ wordTie f.ternary word.toList) : c.isWord word = false := by
  rw [Cursor.isWord, beq_eq_false_iff_ne]
  intro h
  exact absurd htie (Nat.not_lt.mpr (Nat.le_trans (h ▸ hword) (wordTie_le hstops)))

end Stops

/-- The operators of one level, as a rule looks for them. -/
structure Operators (operator : Cursor → Option BinaryOp) (s : Nat) : Prop where
  found : ∀ c op, Token.symbol c.rest = op.symbol.toList → op.strength = s → operator c = some op
  only : ∀ c op, operator c = some op → Token.symbol c.rest = op.symbol.toList ∧ op.strength = s

lemma symbolTie_symbol (op : BinaryOp) : symbolTie op.symbol.toList = op.strength := by
  cases op <;> rfl

/-- The operator of a level that has only one. -/
lemma operators_symbol (op : BinaryOp)
    (honly : ∀ op' : BinaryOp, op'.strength = op.strength → op' = op) :
    Operators (fun c => if c.isSymbol op.symbol then some op else none) op.strength where
  found c op' hop hs := by
    cases honly op' hs
    exact if_pos (beq_iff_eq.mpr hop)
  only c op' hop := by
    split at hop
    · next h =>
      cases hop
      exact ⟨beq_iff_eq.mp h, rfl⟩
    · cases hop

/-- Between `|` and `*`, a rule reads operands of the next stronger one. -/
lemma rule_left (g : Rules) (f : Frame) (n : Nat) {s : Nat} (hlow : 8 ≤ s) (hhigh : s ≤ 13) :
    ∃ operator, Operators operator s ∧ ∀ c, rule g f n s c =
      (rule g f n (s + 1) c).bind fun (left, c) =>
        leftAssoc f operator (rule g f n (s + 1)) n left c := by
  interval_cases s
  · exact ⟨_, operators_symbol .bitOr (by rintro ⟨⟩ <;> decide), fun c => rfl⟩
  · exact ⟨_, operators_symbol .bitAnd (by rintro ⟨⟩ <;> decide), fun c => rfl⟩
  · exact ⟨_, operators_symbol .bitXor (by rintro ⟨⟩ <;> decide), fun c => rfl⟩
  all_goals
    refine ⟨_, ⟨fun c op hop hs => ?_, fun c op hop => ?_⟩, fun c => rfl⟩
    · cases op <;> cases hs <;> rw [hop] <;> rfl
    · split at hop <;> cases hop <;> exact ⟨‹_›, rfl⟩

/-- A row of operands ends where no operator of it follows. -/
lemma leftAssoc_stops {f : Frame} {c : Cursor} {operator : Cursor → Option BinaryOp}
    {operand : Rule Expr} {s : Nat} (ho : Operators operator s) (htie : tie f c < s)
    (n : Nat) (e : Expr) : leftAssoc f operator operand (n + 1) e c = some (e, c) := by
  have hnone : (if f.stops c then none else operator c) = none := by
    split
    · rfl
    · next hstops =>
      cases hop : operator c with
      | none => rfl
      | some op =>
        obtain ⟨hsymbol, rfl⟩ := ho.only c op hop
        have hle := symbolTie_le (Bool.eq_false_iff.mpr hstops)
        rw [hsymbol, symbolTie_symbol] at hle
        exact absurd htie (Nat.not_lt.mpr hle)
  rw [leftAssoc, hnone]

/-- No sign and no `await` stands here. -/
structure Unsigned (c : Cursor) : Prop where
  sign : sign? c = none
  await : c.isWord "await" = false

/-- No `lambda` and no `not` stands here, and no name with a walrus behind it. -/
structure Unnamed (f : Frame) (c : Cursor) : Prop where
  lambda : c.isWord "lambda" = false
  not : c.isWord "not" = false
  walrus : ∀ x c', c.name? = some (x, c') → f.stops c' = true ∨ c'.isSymbol ":=" = false

section Lift

variable {g : Rules} {f : Frame} {n : Nat} {c c' : Cursor} {e : Expr}

lemma postfixes_stops (htie : tie f c < 17) (m : Nat) (e : Expr) :
    postfixes g f n (m + 1) e c = some (e, c) := by
  rw [postfixes]
  split
  · rfl
  · next hstops =>
    have hstops := Bool.eq_false_iff.mpr hstops
    simp [isSymbol_false "." htie hstops (by decide), isSymbol_false "[" htie hstops (by decide),
      isSymbol_false "(" htie hstops (by decide)]

lemma primary_of_atom (h : atom g f (n + 1) c = some (e, c')) (htie : tie f c' < 17) :
    primary g f (n + 1) c = some (e, c') := by
  rw [primary, h]
  exact postfixes_stops htie n e

lemma power_of_primary (h : primary g f n c = some (e, c')) (htie : tie f c' < 15) :
    power g f n c = some (e, c') := by
  have hpow : ¬(!f.stops c' && c'.isSymbol "**") := by
    cases hstops : f.stops c' with
    | true => simp
    | false => simp [isSymbol_false "**" htie hstops (by decide)]
  rw [power, h]
  exact if_neg hpow

lemma unary_of_power (h : power g f n c = some (e, c')) (hc : Unsigned c) :
    unary g f n c = some (e, c') := by
  simp [unary, hc.sign, hc.await, h]

lemma left_of_next {s : Nat} (hlow : 8 ≤ s) (hhigh : s ≤ 13)
    (h : rule g f (n + 1) (s + 1) c = some (e, c')) (htie : tie f c' < s) :
    rule g f (n + 1) s c = some (e, c') := by
  obtain ⟨operator, ho, hrule⟩ := rule_left g f (n + 1) hlow hhigh
  rw [hrule, h]
  exact leftAssoc_stops ho htie n e

lemma compareSymbol?_stops (htie : tie f c < 7) :
    (if f.stops c then none else compareSymbol? c) = none := by
  split
  · rfl
  · next hstops =>
    have hstops := Bool.eq_false_iff.mpr hstops
    have hin := isWord_false "in" htie hstops (Nat.le_refl 7)
    have hnot := isWord_false "not" htie hstops (Nat.le_refl 7)
    have his := isWord_false "is" htie hstops (Nat.le_refl 7)
    have hsymbol : ["<", "<=", "==", "!=", ">=", ">", "<>"].contains
        (String.ofList (Token.symbol c.rest)) = false := by
      rw [Bool.eq_false_iff]
      intro hmem
      have hcompare : ∀ symbol ∈ ["<", "<=", "==", "!=", ">=", ">", "<>"],
          7 ≤ symbolTie symbol.toList := by decide
      have hle := hcompare _ (List.contains_iff_mem.mp hmem)
      rw [String.toList_ofList] at hle
      exact absurd htie (Nat.not_lt.mpr (Nat.le_trans hle (symbolTie_le hstops)))
    rw [compareSymbol?]
    simp only [hsymbol, hin, hnot, his, Bool.false_eq_true, if_false]

lemma comparison_of_bitOr (h : bitOr g f (n + 1) c = some (e, c')) (htie : tie f c' < 7) :
    comparison g f (n + 1) c = some (e, c') := by
  simp [comparison, h, comparisons, compareSymbol?_stops htie]

lemma inversion_of_comparison (h : comparison g f n c = some (e, c')) (hc : Unnamed f c) :
    inversion g f n c = some (e, c') := by
  have hnamed : named g f c = none := by
    unfold named
    cases hname : c.name? with
    | none => rfl
    | some r =>
      have hno : ¬(!f.stops r.2 && r.2.isSymbol ":=") := by
        rcases hc.walrus r.1 r.2 hname with h | h <;> simp [h]
      simp only [Option.bind_eq_bind, Option.bind_some, if_neg hno, Option.bind_none]
  simp [inversion, hc.lambda, hc.not, hnamed, h]

lemma chain_of_operand (op : BoolOp) {operand : Rule Expr} {s : Nat}
    (hop : s ≤ wordTie f.ternary op.symbol.toList) (h : operand c = some (e, c'))
    (htie : tie f c' < s) : chain f op operand (n + 1) c = some (e, c') := by
  have hstop : ¬(!f.stops c' && c'.isWord op.symbol) := by
    cases hstops : f.stops c' with
    | true => simp
    | false => simp [isWord_false op.symbol htie hstops hop]
  simp only [chain, h, operands, if_neg hstop, Option.bind_eq_bind, Option.bind_some]
  rfl

lemma conditional_of_disjunction (h : disjunction g f n c = some (e, c')) (htie : tie f c' < 3) :
    conditional g f n c = some (e, c') := by
  have hstop : ¬(f.ternary && !f.stops c' && c'.isWord "if") := by
    cases hternary : f.ternary with
    | false => simp
    | true =>
      cases hstops : f.stops c' with
      | true => simp
      | false =>
        have hword : 3 ≤ wordTie f.ternary "if".toList := by rw [hternary]; decide
        simp [isWord_false "if" htie hstops hword]
  simp only [conditional, h, if_neg hstop, Option.bind_eq_bind, Option.bind_some]
  rfl

lemma expr_of_conditional (h : conditional g f (n + 1) c = some (e, c')) (htie : tie f c' < 2) :
    expr g f (n + 1) c = some (e, c') := by
  have hstop : ¬(!f.stops c' && c'.isWord "as") := by
    cases hstops : f.stops c' with
    | true => simp
    | false => simp [isWord_false "as" htie hstops (Nat.le_refl 2)]
  simp only [expr, h, asTargets, if_neg hstop, Option.bind_eq_bind, Option.bind_some]

/-- What may stand at the front of an expression that rules of level `s` and weaker ones are to
read through. -/
structure Front (f : Frame) (s : Nat) (c : Cursor) : Prop where
  unsigned : 15 ≤ s → Unsigned c
  unnamed : 7 ≤ s → Unnamed f c

lemma rule_of_next {s : Nat} (hlow : 2 ≤ s) (hhigh : s ≤ 16) (hc : Front f (s + 1) c)
    (h : rule g f (n + 1) (s + 1) c = some (e, c')) (htie : tie f c' < s) :
    rule g f (n + 1) s c = some (e, c') := by
  by_cases hleft : 8 ≤ s ∧ s ≤ 13
  · exact left_of_next hleft.1 hleft.2 h htie
  · have hs : s = 2 ∨ s = 3 ∨ s = 4 ∨ s = 5 ∨ s = 6 ∨ s = 7 ∨ s = 14 ∨ s = 15 ∨ s = 16 := by omega
    rcases hs with rfl | rfl | rfl | rfl | rfl | rfl | rfl | rfl | rfl
    · exact expr_of_conditional h htie
    · exact conditional_of_disjunction h htie
    · exact chain_of_operand .or (Nat.le_refl 4) h htie
    · exact chain_of_operand .and (Nat.le_refl 5) h htie
    · exact inversion_of_comparison h (hc.unnamed (Nat.le_refl 7))
    · exact comparison_of_bitOr h htie
    · exact unary_of_power h (hc.unsigned (Nat.le_refl 15))
    · exact power_of_primary h htie
    · exact h

/-- Where nothing follows that a rule goes on with, it reads what a stronger one reads. -/
lemma rule_of_le {s t : Nat} (hlow : 2 ≤ s) (hst : s ≤ t) (hhigh : t ≤ 17) (hc : Front f t c)
    (h : rule g f (n + 1) t c = some (e, c')) (htie : tie f c' < s) :
    rule g f (n + 1) s c = some (e, c') := by
  induction t, hst using Nat.le_induction with
  | base => exact h
  | succ t hst ih =>
    have hfront : Front f t c := ⟨fun ht => hc.unsigned (by omega), fun ht => hc.unnamed (by omega)⟩
    exact ih (by omega) hfront (rule_of_next (by omega) (by omega) hc h (by omega))

end Lift

open Token Literal

variable {g : Rules} {f : Frame} {n : Nat} {c : Cursor} {tail : List Char}

lemma stringStart?_of_tie {s : Nat} (hs : s ≤ 18) (htie : tie f c < s)
    (hstops : f.stops c = false) :
    stringStart? c.rest = none := by
  cases hstart : stringStart? c.rest with
  | none => rfl
  | some start =>
    rw [tie, hstops, hstart] at htie
    exact absurd htie (Nat.not_lt.mpr hs)

/-- A quote is solid, and opens a literal. -/
lemma solid_quote {quote : Char} (hquote : isQuote quote) (cs : List Char) :
    Cursor.Solid (quote :: cs) := by
  rcases (Bool.or_eq_true_iff ..).mp hquote with h | h <;> cases beq_iff_eq.mp h <;> rfl

lemma isSome_stringStart?_quote {quote : Char} (hquote : isQuote quote) (cs : List Char) :
    (stringStart? (quote :: cs)).isSome := by
  have hletter : isPrefixLetter quote = false := by
    rcases (Bool.or_eq_true_iff ..).mp hquote with h | h <;> cases beq_iff_eq.mp h <;> rfl
  simp [stringStart?, List.takeWhile, List.dropWhile, hletter, hquote]

/-- Behind a literal that is followed as an atom may be, no quote stands. -/
lemma head?_ne_of_tie {quote : Char} (hquote : isQuote quote) {text : List Char}
    (htext : 0 < text.length) (hrest : c.rest = text ++ tail)
    (htie : tie f (c.advance text.length) < 18) :
    tail.head? ≠ some quote := by
  intro hhead
  obtain ⟨more, rfl⟩ : ∃ more, tail = quote :: more := by
    cases tail with
    | nil => cases hhead
    | cons q more => exact ⟨more, by rw [Option.some.inj hhead]⟩
  have hmoved := (Cursor.Moved.start hrest).next text (solid_quote hquote more)
  have hstops : f.stops (c.advance text.length) = false := by
    rw [Frame.stops, hmoved.lineEnd (by omega)]
    exact Bool.and_false _
  have hnone := stringStart?_of_tie (Nat.le_refl 18) htie hstops
  rw [hmoved.rest] at hnone
  have hsome := isSome_stringStart?_quote hquote more
  rw [hnone] at hsome
  cases hsome

section Written

variable {octets : Bool} {quote : Char} {inner : List Char} {value : StringLiteral}

/-- A written literal is read as its characters. -/
lemma string_written (hw : Written octets quote inner value)
    (hrest : c.rest = literal octets quote inner ++ tail) (htail : tail.head? ≠ some quote) :
    string g (n + 1) c =
      some (literal octets quote inner, c.advance (literal octets quote inner).length) := by
  have hstart : stringStart? c.rest = some (opening octets quote) := by
    rw [hrest, hw.starts tail htail]
  have hlength : (literal octets quote inner).length =
      (opening octets quote).length + (inner.length + 1) := by
    cases octets <;> simp [literal, opening] <;> omega
  have hinner : (c.step (opening octets quote).length).rest = inner ++ quote :: tail := by
    cases octets <;> simp [Cursor.step, hrest, literal, opening]
  have htext : c.textTo (c.advance (literal octets quote inner).length) =
      literal octets quote inner := by
    rw [Cursor.textTo_advance, hrest, List.take_left]
  have hbody : stringBody g (opening octets quote) (n + 1) (c.step (opening octets quote).length) =
      some ((), c.advance (literal octets quote inner).length) := by
    rw [stringBody, hinner, hw.closes, hlength, ← Cursor.step_advance]
  simp only [string, hstart, hbody, htext, Option.bind_eq_bind, Option.bind_some]
  rfl

/-- A written literal is an atom, with what its value is alone. -/
lemma atom_written (hw : Written octets quote inner value) {constant : Constant}
    (hjoin : joinStrings? [literal octets quote inner] = some constant)
    (hrest : c.rest = literal octets quote inner ++ tail)
    (htie : tie f (c.advance (literal octets quote inner).length) < 18) :
    atom g f (n + 1) c =
      some (.constant constant, c.advance (literal octets quote inner).length) := by
  have hlength : 0 < (literal octets quote inner).length := by simp [literal]
  have htail := head?_ne_of_tie hw.quoted hlength hrest htie
  have hstart : (stringStart? c.rest).isSome := by
    rw [hrest, hw.starts tail htail]
    rfl
  have hnext : (if f.stops (c.advance (literal octets quote inner).length) then none
      else string g (n + 1) (c.advance (literal octets quote inner).length)) = none := by
    split
    · rfl
    · next hstops =>
      have hnone := stringStart?_of_tie (Nat.le_refl 18) htie (Bool.eq_false_iff.mpr hstops)
      simp only [string, hnone, Option.bind_eq_bind, Option.bind_none]
  rw [atom, if_pos hstart]
  simp only [stringAtom, string_written hw hrest htail, strings, hnext, Option.bind_eq_bind,
    Option.bind_some, List.reverse_cons, List.reverse_nil, List.nil_append, hjoin]
  rfl

end Written

/-- The literal of a text is an atom with the text as its value. -/
lemma atom_str {s : String} (hrest : c.rest = quoteChars s.toList ++ tail)
    (htie : tie f (c.advance (quoteChars s.toList).length) < 18) :
    atom g f (n + 1) c = some (.str s, c.advance (quoteChars s.toList).length) := by
  have hjoin : joinStrings? [quoteChars s.toList] = some (.str s) := by
    simp [joinStrings?, decode?_quoteChars, String.join]
  exact atom_written (written_text s.toList) hjoin hrest htie

/-- The literal of octets is an atom with the octets as its value. -/
lemma atom_bytes {b : Bytes} (hrest : c.rest = quoteByteChars b ++ tail)
    (htie : tie f (c.advance (quoteByteChars b).length) < 18) :
    atom g f (n + 1) c = some (.bytes b, c.advance (quoteByteChars b).length) := by
  have hjoin : joinStrings? [quoteByteChars b] = some (.bytes b) := by
    simp [joinStrings?, decode?_quoteByteChars]
  exact atom_written (written_octets b) hjoin hrest htie

end Grammar

end Unmask
