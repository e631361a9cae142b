import Unmask.Proofs.Legible.Constants

/-!
# Legible lists

A row of elements is read one by one, each up to the comma or the bracket behind it: no expression
goes on with such a symbol.
-/
namespace Unmask.Grammar
open Cursor Literal Text

/-- The symbols behind the elements of a row. -/
def closers : List Char := [',', ')', ']', '\x7d']

section Closers

variable {f : Frame} {c : Cursor} {d : Char} {tail : List Char}

lemma solid_closer (hd : d ∈ closers) (tail : List Char) : Solid (d :: tail) := by
  have hall : ∀ d ∈ closers, isSolid d := by decide
  exact hall d hd

lemma symbol_closer (hrest : c.rest = d :: tail) (hd : d ∈ closers) :
    Token.symbol c.rest = [d] := by
  simp only [closers, List.mem_cons, List.not_mem_nil, or_false] at hd
  rcases hd with rfl | rfl | rfl | rfl <;> rw [hrest] <;> rfl

lemma isSymbol_closer (hrest : c.rest = d :: tail) (hd : d ∈ closers) (symbol : String) :
    c.isSymbol symbol = ([d] == symbol.toList) := by
  rw [isSymbol, symbol_closer hrest hd]

lemma word_closer (hrest : c.rest = d :: tail) (hd : d ∈ closers) : c.word = [] := by
  have hall : ∀ d ∈ closers, isIdentifierStart d = false := by decide
  rw [Cursor.word, hrest, word_nil_of_not_start (hall d hd)]

lemma stringStart?_closer (hd : d ∈ closers) : Token.stringStart? (d :: tail) = none := by
  simp only [closers, List.mem_cons, List.not_mem_nil, or_false] at hd
  rcases hd with rfl | rfl | rfl | rfl <;> rfl

/-- No expression goes on with a closing symbol. -/
lemma tie_closer (hrest : c.rest = d :: tail) (hd : d ∈ closers) : tie f c = 0 := by
  rw [tie, symbol_closer hrest hd, word_closer hrest hd, hrest, stringStart?_closer hd]
  simp only [closers, List.mem_cons, List.not_mem_nil, or_false] at hd
  rcases hd with rfl | rfl | rfl | rfl <;> split <;> rfl

lemma isClause_closer (hrest : c.rest = d :: tail) (hd : d ∈ closers) : isClause c = false := by
  simp [isClause, Cursor.isWord, word_closer hrest hd]

lemma apart_closer (hd : d ∈ closers) (tail : List Char) : Apart (d :: tail) := by
  have hall : ∀ d ∈ closers, d ∈ followers := by decide
  exact Apart.cons (hall d hd) tail

end Closers

/-- A rule reads something in a text that a closing symbol follows. -/
structure Reads {α : Type} (rule : Rule α) (text : List Char) (x : α) : Prop where
  solid : ∀ tail, Solid (text ++ tail)
  read : ∀ (c : Cursor) d tail, d ∈ closers → c.rest = text ++ d :: tail →
    rule c = some (x, c.advance text.length)

/-- Texts that each stand behind a comma. -/
def row (texts : List (List Char)) : List Char := texts.flatMap (Printer.comma ++ ·)

lemma row_cons (text : List Char) (texts : List (List Char)) :
    row (text :: texts) = ',' :: ' ' :: (text ++ row texts) := rfl

lemma join_comma (text : List Char) (texts : List (List Char)) :
    Printer.join Printer.comma (text :: texts) = text ++ row texts := by
  induction texts generalizing text with
  | nil => simp [Printer.join, row]
  | cons next rest ih => simp [Printer.join, ih, row]

/-- The pieces of a row stand in it in full. -/
lemma sublist_join {texts : List (List Char)} (hmem : text ∈ texts) :
    text.Sublist (Printer.join Printer.comma texts) := by
  cases texts with
  | nil => exact absurd hmem List.not_mem_nil
  | cons first rest =>
    rw [join_comma]
    rcases List.mem_cons.mp hmem with rfl | hrest
    · exact List.sublist_append_left _ _
    · have hpiece : (Printer.comma ++ text).Sublist (row rest) :=
        List.sublist_flatten_of_mem (List.mem_map_of_mem hrest)
      exact ((List.sublist_append_right _ _).trans hpiece).trans (List.sublist_append_right _ _)

/-- A row has a comma for each of its pieces but one. -/
lemma length_le_join (first : List Char) (rest : List (List Char)) :
    rest.length ≤ (Printer.join Printer.comma (first :: rest)).length := by
  have hrow (texts : List (List Char)) : texts.length ≤ (row texts).length := by
    induction texts with
    | nil => exact Nat.zero_le _
    | cons t texts ih =>
      simp only [row_cons, List.length_append, List.length_cons]
      omega
  rw [join_comma, List.length_append]
  exact Nat.le_trans (hrow rest) (Nat.le_add_left _ _)

/-- The characters of a row are those of its pieces and of the commas. -/
lemma mem_join {texts : List (List Char)} {d : Char}
    (hmem : d ∈ Printer.join Printer.comma texts) :
    d ∈ Printer.comma ∨ ∃ t ∈ texts, d ∈ t := by
  cases texts with
  | nil => exact absurd hmem List.not_mem_nil
  | cons first rest =>
    rw [join_comma, row, List.mem_append, List.mem_flatMap] at hmem
    rcases hmem with hfirst | ⟨t, ht, hd⟩
    · exact .inr ⟨first, List.mem_cons_self, hfirst⟩
    · exact (List.mem_append.mp hd).imp_right fun hd => ⟨t, List.mem_cons_of_mem first ht, hd⟩

section Rows

variable {rule : Rule Expr} {text : Expr → List Char} {items : List Expr} {c : Cursor} {q : Char}
  {tail : List Char} {a k : Nat}

/-- A row goes on with a comma or ends at its closing symbol. -/
lemma row_front (texts : List (List Char)) (hq : q ∈ closers) :
    ∃ d ds, d ∈ closers ∧ row texts ++ q :: tail = d :: ds := by
  cases texts with
  | nil => exact ⟨q, tail, hq, rfl⟩
  | cons t texts => exact ⟨',', _, by decide, rfl⟩

/-- The elements behind the first one are read up to the closing bracket. -/
lemma elements_row (hitems : ∀ x ∈ items, Reads rule (text x) x)
    (hrest : c.rest.drop a = row (items.map text) ++ q :: tail) (hq : q ∈ closers)
    (hcomma : q ≠ ',')
    (hk : items.length < k) (done : List Expr) (before : Bool) :
    elements rule k done before (c.advance a) = some ((done.reverse ++ items,
      before || !items.isEmpty), c.advance (a + (row (items.map text)).length)) := by
  induction items generalizing a k done before with
  | nil =>
    obtain ⟨k, rfl⟩ := Nat.exists_eq_succ_of_ne_zero (show k ≠ 0 by omega)
    have hlast : Moved c a (c.advance a) (q :: tail) := moved_advance hrest (solid_closer hq tail)
    have hnone : (c.advance a).symbol? "," = none := by
      have hno : ([q] == ",".toList) = false :=
        beq_eq_false_iff_ne.mpr fun heq => hcomma (List.cons.inj heq).1
      rw [symbol?, isSymbol_closer hlast.rest hq, hno]
      rfl
    simp [elements, hnone, row]
  | cons x items ih =>
    obtain ⟨k, rfl⟩ := Nat.exists_eq_succ_of_ne_zero (show k ≠ 0 by omega)
    have hread := hitems x List.mem_cons_self
    rw [List.map_cons, row_cons] at hrest ⊢
    have hfirst : Moved c a (c.advance a)
        (',' :: ' ' :: (text x ++ (row (items.map text) ++ q :: tail))) :=
      moved_advance (by rw [hrest]; simp) rfl
    have hsecond : Moved c (a + 1 + 1) ((c.advance a).advance 1)
        (text x ++ (row (items.map text) ++ q :: tail)) := hfirst.space [','] (hread.solid _)
    have hdrop : c.rest.drop (a + 1 + 1 + (text x).length) = row (items.map text) ++ q :: tail := by
      have hsum : a + 1 + 1 + (text x).length = a + (2 + (text x).length) := by omega
      rw [hsum, ← List.drop_drop, hrest]
      simp [Nat.add_comm 2]
    have hlength : a + (',' :: ' ' :: (text x ++ row (items.map text))).length =
        a + 1 + 1 + (text x).length + (row (items.map text)).length := by
      simp only [List.length_cons, List.length_append]
      omega
    obtain ⟨d, ds, hd, hds⟩ := row_front (items.map text) hq
    have hsymbol : (c.advance a).symbol? "," = some ((c.advance a).advance 1) := by
      rw [symbol?, isSymbol, hfirst.rest]
      rfl
    have hx : rule ((c.advance a).advance 1) =
        some (x, c.advance (a + 1 + 1 + (text x).length)) := by
      rw [hread.read _ d ds hd (hds ▸ hsecond.rest), hsecond.advance]
    simp only [elements, hsymbol, hx]
    rw [ih (fun y hy => hitems y (List.mem_cons_of_mem x hy)) hdrop (by simpa using hk), hlength]
    simp

/-- A row of elements up to its closing bracket: its first element is read up to a closing symbol,
and the others from there. -/
lemma row_closed {x : Expr} {xs : List Expr} {inner : List Char}
    (hitems : ∀ y ∈ x :: xs, Reads rule (text y) y)
    (hinner : inner = Printer.join Printer.comma ((x :: xs).map text))
    (hrest : c.rest.drop a = inner ++ q :: tail) (hq : q ∈ closers) (hcomma : q ≠ ',')
    (hk : xs.length < k) :
    ∃ (c₁ : Cursor) (d : Char) (ds : List Char), d ∈ closers ∧ c₁.rest = d :: ds ∧
      rule (c.advance a) = some (x, c₁) ∧
      elements rule k [x] false c₁ =
        some ((x :: xs, !xs.isEmpty), c.advance (a + inner.length)) ∧
      Moved c (a + inner.length) (c.advance (a + inner.length)) (q :: tail) := by
  have hx := hitems x List.mem_cons_self
  rw [List.map_cons, join_comma] at hinner
  obtain ⟨d, ds, hd, hds⟩ := row_front (xs.map text) hq
  have hdrop : c.rest.drop a = text x ++ d :: ds := by
    rw [hrest, hinner, List.append_assoc, hds]
  have hfirst : Moved c a (c.advance a) (text x ++ d :: ds) := moved_advance hdrop (hx.solid _)
  have hnext : c.rest.drop (a + (text x).length) = d :: ds := by
    rw [← List.drop_drop, hdrop, List.drop_left]
  have hlast : c.rest.drop (a + inner.length) = q :: tail := by
    rw [← List.drop_drop, hrest, List.drop_left]
  refine ⟨c.advance (a + (text x).length), d, ds, hd,
    (moved_advance hnext (solid_closer hd ds)).rest, ?_, ?_,
    moved_advance hlast (solid_closer hq tail)⟩
  · rw [hx.read _ d ds hd hfirst.rest, hfirst.advance]
  · have hread := elements_row (fun y hy => hitems y (List.mem_cons_of_mem x hy))
      (hnext.trans hds.symm) hq hcomma hk [x] false
    rwa [Nat.add_assoc, ← List.length_append, ← hinner] at hread

end Rows

lemma exprs_eq_map (context : Level) (es : List Expr) :
    Printer.exprs context es = es.map (Printer.expr context) := by
  induction es with
  | nil => rfl
  | cons e es ih => rw [Printer.exprs, ih, List.map_cons]

/-- The text of a list. -/
lemma expr_list (context : Level) (items : List Expr) :
    Printer.expr context (.list items) =
      '[' :: (Printer.join Printer.comma (items.map (Printer.expr .test)) ++ [']']) := by
  rw [Printer.expr, exprs_eq_map]
  rfl

section Lists

variable {n : Nat} {text : List Char} {e : Expr} {items : List Expr} {c : Cursor} {tail : List Char}

/-- A legible text is read as an element of a display. -/
lemma Legible.element {s : Nat} (h : Legible s text e) (hn : text.length < n) :
    Reads (element (Rules.upTo n) n) text e where
  solid := h.solid
  read c d tail hd hrest := by
    have htail := apart_closer hd tail
    have hyield := h.toOpening.isWord_false hrest htail "yield" (by decide)
    have hstar := h.toOpening.isSymbol_false hrest h.low "*" (by decide) (by decide)
    have hnext : Moved c text.length (c.advance text.length) (d :: tail) :=
      moved_advance (by rw [hrest, List.drop_left]) (solid_closer hd tail)
    rw [Grammar.element, hyield, hstar]
    exact h.expr_at hn hrest htail (by rw [tie_closer hnext.rest hd]; decide)

/-- The brackets of a list with elements are read up to the closing one. -/
lemma brackets_cons {x : Expr} {xs : List Expr} {inner : List Char}
    (h : ∀ e ∈ x :: xs, ∃ s, Legible s (Printer.expr .test e) e)
    (hinner : inner = Printer.join Printer.comma ((x :: xs).map (Printer.expr .test)))
    (hn : inner.length + 2 ≤ n) (hrest : c.rest = '[' :: (inner ++ ']' :: tail)) :
    brackets (Rules.upTo n) n c = some (.list (x :: xs), c.advance (inner.length + 2)) := by
  have hitems : ∀ e ∈ x :: xs,
      Reads (Grammar.element (Rules.upTo n) n) (Printer.expr .test e) e := by
    intro e he
    obtain ⟨s, hlegible⟩ := h e he
    have hle := (sublist_join (List.mem_map_of_mem (f := Printer.expr .test) he)).length_le
    rw [← hinner] at hle
    exact hlegible.element (by omega)
  have hcount : xs.length < n := by
    have hle := length_le_join (Printer.expr .test x) (xs.map (Printer.expr .test))
    rw [List.length_map, ← List.map_cons, ← hinner] at hle
    omega
  have hdrop : c.rest.drop 1 = inner ++ ']' :: tail := by rw [hrest, List.drop_one, List.tail_cons]
  obtain ⟨c₁, d, ds, hd, hnext, hx, hxs, hlast⟩ := row_closed hitems hinner hdrop (by decide)
    (by decide) hcount
  have hopened : c.symbol? "[" = some (c.advance 1) := by
    rw [symbol?, isSymbol, hrest]
    rfl
  have hfilled : (c.advance 1).symbol? "]" = none := by
    obtain ⟨s, hlegible⟩ := h x List.mem_cons_self
    have hfront : inner ++ ']' :: tail =
        Printer.expr .test x ++ (row (xs.map (Printer.expr .test)) ++ ']' :: tail) := by
      rw [hinner, List.map_cons, join_comma, List.append_assoc]
    have hmoved := moved_advance (hdrop.trans hfront) (hlegible.solid _)
    rw [symbol?, hlegible.toOpening.isSymbol_false hmoved.rest hlegible.low "]" (by decide)
      (by decide)]
    rfl
  have hclosed : (c.advance (1 + inner.length)).symbol? "]" =
      some (c.advance (inner.length + 2)) := by
    have hend : 1 + inner.length + 1 = inner.length + 2 := by omega
    rw [symbol?, isSymbol_closer hlast.rest (by decide), ← hend]
    exact congrArg some (hlast.advance 1)
  simp only [brackets, hopened, hfilled, hx, isClause_closer hnext hd, hxs, hclosed,
    Option.bind_eq_bind, Option.bind_some]
  rfl

/-- The brackets of an empty list. -/
lemma brackets_nil (hrest : c.rest = '[' :: ']' :: tail) :
    brackets (Rules.upTo n) n c = some (.list [], c.advance 2) := by
  have hinner : Moved c 1 (c.advance 1) (']' :: tail) := (Moved.start hrest).next ['['] rfl
  have hopened : c.symbol? "[" = some (c.advance 1) := by
    rw [symbol?, isSymbol, hrest]
    rfl
  have hclosed : (c.advance 1).symbol? "]" = some (c.advance 2) := by
    rw [symbol?, isSymbol, hinner.rest]
    exact congrArg some (hinner.advance 1)
  simp only [brackets, hopened, hclosed, Option.bind_eq_bind, Option.bind_some]
  rfl

/-- A list of legible elements is legible. -/
lemma legible_list (h : ∀ e ∈ items, ∃ s, Legible s (Printer.expr .test e) e) :
    Legible 17 (Printer.expr .test (.list items)) (.list items) := by
  refine .of_atom ?_ ?_ fun f n c tail hn hrest htail htie => ?_
  · rw [expr_list]
    exact .of_symbol _ (by decide) (by decide)
  · rw [expr_list]
    intro hmem
    simp only [List.mem_cons, List.mem_append, List.not_mem_nil, or_false] at hmem
    rcases hmem with hopen | hjoin | hclose
    · exact absurd hopen (by decide)
    · rcases mem_join hjoin with hcomma | ⟨t, ht, hreturn⟩
      · exact absurd hcomma (by decide)
      · obtain ⟨e, he, rfl⟩ := List.mem_map.mp ht
        obtain ⟨s, hlegible⟩ := h e he
        exact hlegible.clean hreturn
    · exact absurd hclose (by decide)
  · have hstring : Token.stringStart? c.rest = none := by
      rw [hrest, expr_list]
      rfl
    have hnumber : Token.number? c.rest = none := by
      rw [hrest, expr_list]
      exact Token.number?_none (by decide) (by decide) _
    have hsymbol : Token.symbol c.rest = ['['] := by
      rw [hrest, expr_list]
      rfl
    have hbrackets : brackets (Rules.upTo n) n c =
        some (.list items, c.advance (Printer.expr .test (.list items)).length) := by
      rw [expr_list] at hn hrest ⊢
      cases items with
      | nil => exact brackets_nil hrest
      | cons x xs =>
        have hlength (inner : List Char) : ('[' :: (inner ++ [']'])).length = inner.length + 2 := by
          simp
        rw [hlength] at hn ⊢
        exact brackets_cons h rfl hn (by simpa using hrest)
    simp [atom, hstring, hnumber, isSymbol, hsymbol, hbrackets]

end Lists

end Unmask.Grammar
