import Unmask.Proofs.LiteralReading
import Unmask.Syntax.Grammar.Statement

/-!
# Texts that run a text

The text `exec('…')` with any text written as a literal is read as the call it looks like.
-/
namespace Unmask
open Cursor Grammar Literal

lemma unifyLineEnds_eq {cs : List Char} (h : '\r' ∉ cs) : unifyLineEnds cs = cs := by
  induction cs with
  | nil => rfl
  | cons c cs ih =>
    have hmore := ih (fun hmem => h (List.mem_cons_of_mem c hmem))
    have hc : c ≠ '\r' := fun heq => h (heq ▸ List.mem_cons_self)
    rw [unifyLineEnds.eq_def]
    split
    · next heq => exact absurd (List.cons.inj heq).1 hc
    · next heq =>
      obtain ⟨rfl, rfl⟩ := List.cons.inj heq
      rw [hmore]
    · next heq => cases heq

/-- The text that runs a text. -/
def execText (s : String) : String := "exec(" ++ quoteText s ++ ")"

namespace Grammar

variable {g : Rules} {f : Frame} {n : Nat} {c : Cursor}

lemma word_quote {quote : Char} (hquote : isQuote quote) (cs : List Char) :
    Token.word (quote :: cs) = [] := by
  rcases (Bool.or_eq_true_iff ..).mp hquote with h | h <;> cases beq_iff_eq.mp h <;> rfl

lemma symbol_quote {quote : Char} (hquote : isQuote quote) (cs : List Char) :
    Token.symbol (quote :: cs) = [] := by
  rcases (Bool.or_eq_true_iff ..).mp hquote with h | h <;> cases beq_iff_eq.mp h <;> rfl

/-- The literal of a text is an expression where nothing goes on with it. -/
lemma expr_str {s : String} {tail : List Char} (hrest : c.rest = quoteChars s.toList ++ tail)
    (htie : tie f (c.advance (quoteChars s.toList).length) < 2) :
    expr g f (n + 1) c = some (.str s, c.advance (quoteChars s.toList).length) := by
  have hquote : isQuote (textQuote s.toList) := isQuote_chooseQuote _ _
  have hword : c.word = [] := by
    rw [Cursor.word, hrest]
    exact word_quote hquote _
  have hsymbol : Token.symbol c.rest = [] := by
    rw [hrest]
    exact symbol_quote hquote _
  have hfront : Front f 17 c := by
    refine ⟨fun _ => ⟨?_, ?_⟩, fun _ => ⟨?_, ?_, ?_⟩⟩
    · simp [sign?, Cursor.isSymbol, hsymbol]
    · simp [Cursor.isWord, hword]
    · simp [Cursor.isWord, hword]
    · simp [Cursor.isWord, hword]
    · simp [Cursor.name?, hword]
  have hprimary := primary_of_atom (atom_str (g := g) (f := f) (n := n) hrest (by omega)) (by omega)
  exact rule_of_le (s := 2) (t := 17) (by decide) (by decide) (by decide) hfront hprimary htie

/-- No expression goes on behind a closing bracket. -/
lemma tie_close {tail : List Char} (hrest : c.rest = ')' :: tail) : tie f c = 0 := by
  have hstart : Token.stringStart? (')' :: tail) = none := rfl
  have hsymbol : Token.symbol (')' :: tail) = [')'] := rfl
  have hword : c.word = [] := by
    rw [Cursor.word, hrest]
    rfl
  rw [tie, hrest, hstart, hsymbol, hword]
  split <;> rfl

/-- Nothing goes on behind the end of the source. -/
lemma tie_end (hrest : c.rest = []) : tie f c = 0 := by
  have hstart : Token.stringStart? [] = none := rfl
  have hsymbol : Token.symbol [] = [] := rfl
  have hword : c.word = [] := by
    rw [Cursor.word, hrest]
    rfl
  rw [tie, hrest, hstart, hsymbol, hword]
  split <;> rfl

/-- A literal between round brackets is the only argument of a call. -/
lemma callArguments_str {s : String} {tail : List Char} (m : Nat)
    (hrest : c.rest = '(' :: (quoteChars s.toList ++ ')' :: tail)) :
    callArguments (Rules.upTo (n + 2)) (m + 1) c =
      some (([.str s], []), c.advance ((quoteChars s.toList).length + 2)) := by
  have hquote : isQuote (textQuote s.toList) := isQuote_chooseQuote _ _
  let literal := quoteChars s.toList
  have hinner : Moved c 1 (c.advance 1) (literal ++ ')' :: tail) :=
    (Moved.start hrest).next ['('] (solid_quote hquote _)
  have hclose : Moved c (1 + literal.length) ((c.advance 1).advance literal.length) (')' :: tail) :=
    hinner.next literal rfl
  have hsymbol : Token.symbol (c.advance 1).rest = [] := by
    rw [hinner.rest]
    exact symbol_quote hquote _
  have hword : (c.advance 1).word = [] := by
    rw [Cursor.word, hinner.rest]
    exact word_quote hquote _
  have hstr : (Rules.upTo (n + 2)).expr .free (c.advance 1) =
      some (.str s, (c.advance 1).advance literal.length) :=
    expr_str hinner.rest (by rw [tie_close hclose.rest]; decide)
  have hargument : argument (Rules.upTo (n + 2)) (c.advance 1) =
      some (.positional (.str s), (c.advance 1).advance literal.length) := by
    simp [argument, isSymbol, hsymbol, name?, hword, hstr]
  have hopened : c.symbol? "(" = some (c.advance 1) := by
    rw [symbol?, isSymbol, hrest]
    rfl
  have hfilled : noArguments (c.advance 1) = none := by
    simp [noArguments, symbol?, isSymbol, hsymbol]
  have hclause : isClause ((c.advance 1).advance literal.length) = false := by
    have hnone : ((c.advance 1).advance literal.length).word = [] := by
      rw [Cursor.word, hclose.rest]
      rfl
    simp [isClause, isWord, hnone]
  have hclosed : ((c.advance 1).advance literal.length).symbol? ")" =
      some (c.advance (literal.length + 2)) := by
    have hlength : 1 + literal.length + ")".length = literal.length + 2 := by
      have : ")".length = 1 := rfl
      omega
    rw [symbol?, isSymbol, hclose.rest, hclose.advance, hlength]
    rfl
  have hcomma : ((c.advance 1).advance literal.length).symbol? "," = none := by
    rw [symbol?, isSymbol, hclose.rest]
    rfl
  simp only [callArguments, hopened, hfilled, hargument, hclause, argumentsRest, elements, hcomma,
    hclosed, Option.bind_eq_bind, Option.bind_some]
  rfl

/-- The text that runs a text is a call of `exec` with it, alone in its line. -/
lemma expr_exec {s : String} {c : Cursor} (n : Nat)
    (hrest : c.rest = 'e' :: 'x' :: 'e' :: 'c' :: '(' :: (quoteChars s.toList ++ [')'])) :
    expr (Rules.upTo (n + 2)) .statement (n + 2) c =
      some (.call (.name "exec") [.str s] [], c.advance ((quoteChars s.toList).length + 6)) := by
  have hname : Moved c 4 (c.advance 4) ('(' :: (quoteChars s.toList ++ [')'])) :=
    (Moved.start hrest).next ['e', 'x', 'e', 'c'] rfl
  have hsymbol : Token.symbol c.rest = [] := by
    rw [hrest]
    rfl
  have hword : c.word = ['e', 'x', 'e', 'c'] := by
    rw [Cursor.word, hrest]
    rfl
  have hnamed : c.name? = some ("exec", c.advance 4) := by
    rw [name?, hword]
    rfl
  have hatom :
      atom (Rules.upTo (n + 2)) .statement (n + 2) c = some (.name "exec", c.advance 4) := by
    have hstart : Token.stringStart? c.rest = none := by
      rw [hrest]
      rfl
    have hnumber : Token.number? c.rest = none := by
      rw [hrest]
      rfl
    simp [atom, hstart, hnumber, isSymbol, hsymbol, wordAtom, isWord, hword, hnamed]
  have hend : c.advance ((quoteChars s.toList).length + 6) =
      (c.advance 4).advance ((quoteChars s.toList).length + 2) := by
    rw [hname.advance]
    congr 1
    omega
  have hlast : ((c.advance 4).advance ((quoteChars s.toList).length + 2)).rest = [] := by
    refine (advance_end ?_).1
    rw [hname.rest]
    simp
  have hprimary : primary (Rules.upTo (n + 2)) .statement (n + 2) c =
      some (.call (.name "exec") [.str s] [], c.advance ((quoteChars s.toList).length + 6)) := by
    have hstops : Frame.statement.stops (c.advance 4) = false := by
      rw [Frame.stops, hname.lineEnd (by decide)]
      rfl
    have hopens : Token.symbol (c.advance 4).rest = ['('] := by
      rw [hname.rest]
      rfl
    have hcall := callArguments_str (n := n) (n + 1) hname.rest
    have hstop (m : Nat) (e : Expr) := postfixes_stops (g := Rules.upTo (n + 2)) (f := .statement)
      (n := n + 2) (by rw [tie_end hlast]; decide) m e
    simp only [primary, hatom, hend, Option.bind_eq_bind, Option.bind_some]
    rw [postfixes]
    simp [hstops, isSymbol, hopens, hcall, hstop]
  have hfront : Front .statement 17 c := by
    refine ⟨fun _ => ⟨?_, ?_⟩, fun _ => ⟨?_, ?_, ?_⟩⟩
    · simp [sign?, isSymbol, hsymbol]
    · simp [isWord, hword]
    · simp [isWord, hword]
    · simp [isWord, hword]
    · intro x c' hname'
      rw [hnamed] at hname'
      cases hname'
      refine .inr ?_
      rw [isSymbol, hname.rest]
      rfl
  refine rule_of_le (s := 2) (t := 17) (by decide) (by decide) (by decide) hfront hprimary ?_
  rw [hend, tie_end hlast]
  decide

end Grammar

/-- The words that begin a statement other than an expression, or may do so. -/
def Grammar.leaders : List String :=
  ["if", "while", "for", "try", "with", "def", "class", "async", "match", "pass", "break",
    "continue", "import", "from", "return", "del", "raise", "assert", "global", "nonlocal", "yield",
    "type"]

/-- An expression up to the end of its line is a statement, unless its first word begins another
one. -/
lemma Grammar.statement_expr {g : Rules} {n : Nat} {c c' : Cursor} {e : Expr}
    (hleader : ∀ w ∈ leaders, c.isWord w = false) (hat : c.isSymbol "@" = false)
    (hprint : c.isWord "print" → c.afterWord.isSymbol ">>" = false)
    (he : g.expr .statement c = some (e, c')) (hcomma : c'.isSymbol "," = false)
    (hend : c'.lineEnd.isSome) : statement g (n + 2) c = some ([.expr e], c') := by
  simp only [leaders, List.mem_cons, List.not_mem_nil, or_false, forall_eq_or_imp,
    forall_eq] at hleader
  have hplain : expressionStatement g (n + 1) c = some (.expr e, c') := by
    simp [expressionStatement, hleader, he, elements, symbol?, hcomma, hend]
  have hsoft : softStatement g (n + 1) c = some (.expr e, c') := by
    have hfull : toEnd (expressionStatement g (n + 1)) c = some (.expr e, c') := by
      simp [toEnd, hplain, isStatementEnd, hend]
    unfold softStatement
    dsimp only
    split
    · exact hplain
    · split
      · next hword => simp [hprint hword, hfull]
      · split
        · simp [hfull]
        · simp [hleader, hplain]
  have hsimple : simpleStatement g (n + 1) c = some (.expr e, c') := by
    simp [simpleStatement, hleader, hsoft]
  have hcompound : compoundStatement g (n + 2) c = none := by
    simp [compoundStatement, hleader, hat]
  simp [statement, hcompound, simpleStatements, hsimple, hend]

/-- A source that is one expression is a program of that expression. -/
lemma Module.parse_single {source : String} {e : Expr} {k : Nat} (hline : '\r' ∉ source.toList)
    (hsolid : Solid source.toList) (hdone : source.toList.drop k = [])
    (hread : ∀ n (c : Cursor), source.toList.length ≤ n → c.rest = source.toList →
      expr (Rules.upTo (n + 2)) .statement (n + 2) c = some (e, c.advance k))
    (hleader : ∀ w ∈ leaders, Token.word source.toList ≠ w.toList)
    (hat : Token.symbol source.toList ≠ ['@'])
    (hprint : Token.word source.toList ≠ "print".toList) :
    Module.parse source = .ok [.expr e] := by
  obtain ⟨n, hn⟩ : ∃ n, stepLimit source.toList = n + 3 := ⟨_, rfl⟩
  obtain ⟨c, hc⟩ : ∃ c, start source.toList = c := ⟨_, rfl⟩
  have hstart := start_solid hsolid
  rw [hc] at hstart
  have hrest : c.rest = source.toList := by rw [hstart]
  have hlast := advance_end (c := c) (n := k) (by rw [hrest, hdone])
  have hcomma : (c.advance k).isSymbol "," = false := by
    rw [isSymbol, hlast.1]
    rfl
  have hlength : source.toList.length ≤ n := by
    unfold stepLimit at hn
    omega
  have hexpr : (Rules.upTo (n + 3)).expr .statement c = some (e, c.advance k) :=
    hread n c hlength hrest
  have hstatement : statement (Rules.upTo (n + 3)) (n + 3) c = some ([.expr e], c.advance k) := by
    refine statement_expr (fun w hw => ?_) ?_ (fun h => ?_) hexpr hcomma (by rw [hlast.2]; rfl)
    · rw [isWord, Cursor.word, hrest, beq_eq_false_iff_ne]
      exact hleader w hw
    · rw [isSymbol, hrest, beq_eq_false_iff_ne]
      exact hat
    · rw [isWord, Cursor.word, hrest, beq_iff_eq] at h
      exact absurd h hprint
  have hfirst : (c.atEnd || c.isDedented) = false := by
    rw [atEnd, isDedented, hrest, hstart]
    cases hchars : source.toList with
    | nil =>
      rw [hchars] at hsolid
      cases hsolid
    | cons x rest => rfl
  have hend : (c.advance k).atEnd := by
    rw [atEnd, hlast.1]
    rfl
  have hall : statements (Rules.upTo (n + 3)) (n + 3) (n + 3) [] c =
      some ([.expr e], c.advance k) := by
    simp [statements, hfirst, hstatement, hend]
  rw [Module.parse, Module.ofChars?, unifyLineEnds_eq hline]
  simp only [hn, hc, hall, hend, if_true]

/-- The literal of a text is a program of the text. -/
theorem Module.parse_quoteText (s : String) :
    Module.parse (quoteText s) = .ok [.expr (.str s)] := by
  have hquote : isQuote (textQuote s.toList) := isQuote_chooseQuote _ _
  have hchars : (quoteText s).toList = quoteChars s.toList := by simp [quoteText]
  have hword : Token.word (quoteChars s.toList) = [] := word_quote hquote _
  have hsymbol : Token.symbol (quoteChars s.toList) = [] := symbol_quote hquote _
  refine Module.parse_single (k := (quoteChars s.toList).length) ?_ ?_ ?_ ?_ ?_ ?_ ?_ <;>
    rw [hchars]
  · exact return_not_mem_quoteChars s.toList
  · exact solid_quote hquote _
  · exact List.drop_length
  · intro n c _ hrest
    have hlast := (advance_end (c := c) (n := (quoteChars s.toList).length) (by simp [hrest])).1
    exact expr_str (hrest.trans (List.append_nil _).symm) (by rw [tie_end hlast]; decide)
  · rw [hword]
    decide
  · rw [hsymbol]
    decide
  · rw [hword]
    decide

/-- The text that runs a text is a program of one call. -/
theorem Module.parse_execText (s : String) :
    Module.parse (execText s) = .ok [.expr (.call (.name "exec") [.str s] [])] := by
  have hchars : (execText s).toList =
      'e' :: 'x' :: 'e' :: 'c' :: '(' :: (quoteChars s.toList ++ [')']) := by
    simp [execText, quoteText, String.toList_append]
  have hword : Token.word (execText s).toList = ['e', 'x', 'e', 'c'] := by
    rw [hchars]
    rfl
  refine Module.parse_single (k := (quoteChars s.toList).length + 6) ?_ ?_ ?_ ?_ ?_ ?_ ?_
  · rw [hchars]
    simp [return_not_mem_quoteChars]
  · rw [hchars]
    rfl
  · simp [hchars]
  · intro n c _ hrest
    exact expr_exec n (hrest.trans hchars)
  · rw [hword]
    decide
  · rw [hchars]
    show [] ≠ ['@']
    decide
  · rw [hword]
    decide

end Unmask
