import Mathlib.Data.List.TakeWhile
import Unmask.Proofs.TextParts
import Unmask.Syntax.Grammar.Statement
import Unmask.Syntax.Printer

/-!
# String literals in kept text

What the tree does not model is kept as text, which is moved left when it is read and right again
when it is written. This goes line by line: the first line stays, and the margin of every other
one is changed, whatever stands there. So a string literal in kept text has its characters
afterwards if and only if each of its further lines is one that this leaves as it is. A literal of
a single line always stays, and one that goes on in a line of another margin does not.
-/
namespace Unmask

namespace Text

/-- Lines in a row, each behind a line end. -/
def below (rows : List (List Char)) : List Char := rows.flatMap ('\n' :: ·)

/-- A text is its lines with line ends between them. -/
lemma append_below {cs first : List Char} {rest : List (List Char)}
    (h : splitChars '\n' cs = first :: rest) : first ++ below rest = cs := by
  induction cs generalizing first rest with
  | nil =>
    cases h
    rfl
  | cons c cs ih =>
    obtain ⟨x, xs, hrows⟩ := exists_cons_of_splitChars '\n' cs
    rw [splitChars_cons, hrows] at h
    split at h
    · next hc =>
      cases h
      rw [← ih hrows, hc]
      rfl
    · cases h
      rw [← ih hrows]
      rfl

/-- Lines with line ends between them are the lines of a text. -/
lemma splitChars_below {first : List Char} {rest : List (List Char)}
    (h : ∀ row ∈ first :: rest, '\n' ∉ row) :
    splitChars '\n' (first ++ below rest) = first :: rest := by
  have hfirst : splitChars '\n' first = [] ++ [first] :=
    splitChars_self (h first List.mem_cons_self)
  induction rest generalizing first with
  | nil =>
    rw [below, List.flatMap_nil, List.append_nil]
    exact hfirst
  | cons row rest ih =>
    have hrest : ∀ r ∈ row :: rest, '\n' ∉ r := fun r hr => h r (List.mem_cons_of_mem first hr)
    have hrow := splitChars_self (hrest row List.mem_cons_self)
    have hbelow : splitChars '\n' (below (row :: rest)) = [] :: row :: rest := by
      rw [show below (row :: rest) = '\n' :: (row ++ below rest) from rfl, splitChars_cons,
        if_pos rfl, ih hrest hrow]
    rw [splitChars_append hfirst hbelow, List.append_nil]
    rfl

/-- A text with its first line changed in one way and its further lines in another one. -/
def relaid (f g : List Char → List Char) (cs : List Char) : List Char :=
  match splitChars '\n' cs with
  | [] => []
  | first :: rest => f first ++ below (rest.map g)

/-- The lines of a text after the first one. -/
def further (cs : List Char) : List (List Char) := (splitChars '\n' cs).tail

/-- A text begins with a character that is no blank. -/
def Opens (cs : List Char) : Prop := ∃ c ∈ cs.head?, isBlank c = false

/-- A text ends with a character that is no blank. -/
def Closes (cs : List Char) : Prop := ∃ c ∈ cs.getLast?, isBlank c = false

section Relaid

variable {f g : List Char → List Char} {cs pre : List Char}

lemma relaid_eq {first : List Char} {rest : List (List Char)}
    (h : splitChars '\n' cs = first :: rest) : relaid f g cs = f first ++ below (rest.map g) := by
  unfold relaid
  rw [h]

/-- The first line of a text that begins with a character begins with it. -/
lemma Opens.line {first : List Char} {rest : List (List Char)} (h : Opens cs)
    (hrows : splitChars '\n' cs = first :: rest) : Opens first := by
  obtain ⟨c, hc, hblank⟩ := h
  cases cs with
  | nil => contradiction
  | cons d cs =>
    cases hc
    obtain ⟨x, xs, hx⟩ := exists_cons_of_splitChars '\n' cs
    have hne : c ≠ '\n' := by
      rintro rfl
      contradiction
    rw [splitChars_cons, if_neg hne, hx] at hrows
    cases hrows
    exact ⟨c, rfl, hblank⟩

/-- The last line of a text that ends with a character ends with it. -/
lemma Closes.line {last : List Char} {rows : List (List Char)} (h : Closes cs)
    (hrows : splitChars '\n' cs = rows ++ [last]) : Closes last := by
  obtain ⟨c, hc, hblank⟩ := h
  obtain ⟨cs, rfl⟩ := List.getLast?_eq_some_iff.mp hc
  obtain ⟨rows', last', hcs⟩ := exists_concat_of_splitChars '\n' cs
  have hne : '\n' ∉ [c] := by
    rintro hmem
    rw [← List.mem_singleton.mp hmem] at hblank
    contradiction
  have hjoined := splitChars_append hcs (splitChars_self hne)
  obtain ⟨-, hlast⟩ := List.append_inj' (hrows.symm.trans hjoined) rfl
  rw [List.singleton_inj.mp hlast]
  exact ⟨c, by simp, hblank⟩

/-- What stands before a text is changed in the same way whatever the text is, if the text begins
with a character that is no blank. -/
lemma relaid_front (hf : ∀ x, ∃ x', ∀ y, Opens y → f (x ++ y) = x' ++ y)
    (hg : ∀ x, ∃ x', ∀ y, Opens y → g (x ++ y) = x' ++ y) (pre : List Char) :
    ∃ before, ∀ cs, Opens cs → relaid f g (pre ++ cs) = before ++ relaid id g cs := by
  obtain ⟨rows, last, hpre⟩ := exists_concat_of_splitChars '\n' pre
  cases rows with
  | nil =>
    obtain ⟨before, hbefore⟩ := hf last
    refine ⟨before, fun cs hcs => ?_⟩
    obtain ⟨first, rest, hrows⟩ := exists_cons_of_splitChars '\n' cs
    have hfirst := hbefore first (hcs.line hrows)
    rw [relaid_eq (splitChars_append hpre hrows), relaid_eq hrows, hfirst, List.append_assoc]
    rfl
  | cons row rows =>
    obtain ⟨before, hbefore⟩ := hg last
    refine ⟨f row ++ (below (rows.map g) ++ '\n' :: before), fun cs hcs => ?_⟩
    obtain ⟨first, rest, hrows⟩ := exists_cons_of_splitChars '\n' cs
    have hfirst := hbefore first (hcs.line hrows)
    have hall : splitChars '\n' (pre ++ cs) = row :: (rows ++ (last ++ first) :: rest) :=
      splitChars_append hpre hrows
    rw [relaid_eq hall, relaid_eq hrows]
    simp [below, hfirst]

/-- What stands behind a text is changed in the same way whatever the text is, if the text ends with
a character that is no blank. -/
lemma relaid_back (hg : ∀ x, Closes x → ∀ y, g (x ++ y) = g x ++ y) (post : List Char) :
    ∃ after, ∀ cs, Closes cs → relaid id g (cs ++ post) = relaid id g cs ++ after := by
  obtain ⟨next, rest, hpost⟩ := exists_cons_of_splitChars '\n' post
  refine ⟨next ++ below (rest.map g), fun cs hcs => ?_⟩
  obtain ⟨rows, last, hrows⟩ := exists_concat_of_splitChars '\n' cs
  have hall := splitChars_append hrows hpost
  cases rows with
  | nil =>
    rw [relaid_eq hall, relaid_eq hrows]
    simp [below]
  | cons row rows =>
    have hlast := hg last (hcs.line hrows) next
    have hfirst : splitChars '\n' cs = row :: (rows ++ [last]) := hrows
    rw [relaid_eq hall, relaid_eq hfirst]
    simp [below, hlast]

/-- A text stays if and only if all its further lines stay. -/
lemma relaid_eq_self_iff (hg : ∀ row, '\n' ∉ row → '\n' ∉ g row) :
    relaid id g cs = cs ↔ ∀ row ∈ further cs, g row = row := by
  obtain ⟨first, rest, hrows⟩ := exists_cons_of_splitChars '\n' cs
  have hfree : ∀ row ∈ first :: rest, '\n' ∉ row := fun row hrow =>
    not_mem_of_splitChars (hrows ▸ hrow)
  have hfree' : ∀ row ∈ first :: rest.map g, '\n' ∉ row := by
    refine List.forall_mem_cons.mpr ⟨hfree first List.mem_cons_self, fun row hrow => ?_⟩
    obtain ⟨old, hold, rfl⟩ := List.mem_map.mp hrow
    exact hg old (hfree old (List.mem_cons_of_mem first hold))
  rw [further, hrows, relaid_eq hrows]
  constructor
  · intro h
    have hmap : first :: rest.map g = first :: rest := by
      rw [← splitChars_below hfree', ← hrows]
      exact congrArg (splitChars '\n') h
    exact List.map_inj_left.mp ((List.cons.inj hmap).2.trans (List.map_id rest).symm)
  · intro h
    have hrest : rest.map g = rest := (List.map_inj_left.mpr h).trans (List.map_id rest)
    rw [hrest]
    exact append_below hrows

end Relaid

end Text

open Text

namespace Cursor

variable {n : Nat} {row x y : List Char}

/-- The characters that a margin consists of. -/
def isMargin (c : Char) : Bool := c == ' ' || c == '\t'

/-- What is dropped when a line is moved left. -/
def margin (n : Nat) (row : List Char) : List Char := (row.takeWhile isMargin).take n

lemma isBlank_of_margin {c : Char} (h : isMargin c) : isBlank c := by
  rcases Bool.or_eq_true_iff.mp h with h | h <;>
  · rw [beq_iff_eq.mp h]
    rfl

lemma not_margin {c : Char} (h : isBlank c = false) : isMargin c = false :=
  Bool.eq_false_iff.mpr fun hmargin =>
    Bool.false_ne_true (h.symm.trans (isBlank_of_margin hmargin))

lemma margin_cons (n : Nat) (c : Char) (row : List Char) :
    margin (n + 1) (c :: row) = if isMargin c then c :: margin n row else [] := by
  unfold margin
  rw [List.takeWhile_cons]
  split <;> rfl

lemma dropIndent_cons (n : Nat) (c : Char) (row : List Char) :
    dropIndent (n + 1) (c :: row) = if isMargin c then dropIndent n row else c :: row := rfl

/-- A line is its margin and what is left without it. -/
lemma margin_append_dropIndent (n : Nat) (row : List Char) :
    margin n row ++ dropIndent n row = row := by
  induction row generalizing n with
  | nil => cases n <;> rfl
  | cons c row ih =>
    cases n with
    | zero => simp [margin, dropIndent]
    | succ n =>
      rw [margin_cons, dropIndent_cons]
      split
      · rw [List.cons_append, ih n]
      · rfl

lemma blank_of_mem_margin {c : Char} (h : c ∈ margin n row) : isBlank c :=
  isBlank_of_margin (List.mem_takeWhile_imp (List.mem_of_mem_take h))

/-- A line that goes on with a character that is no blank loses the margin of its front. -/
lemma dropIndent_append_opens (n : Nat) (x : List Char) (h : Opens y) :
    dropIndent n (x ++ y) = dropIndent n x ++ y := by
  induction x generalizing n with
  | nil =>
    obtain ⟨c, hc, hblank⟩ := h
    cases y with
    | nil => contradiction
    | cons d y =>
      cases hc
      cases n with
      | zero => rfl
      | succ n =>
        rw [List.nil_append, dropIndent_cons, not_margin hblank]
        rfl
  | cons c x ih =>
    cases n with
    | zero => rfl
    | succ n =>
      rw [List.cons_append, dropIndent_cons, dropIndent_cons]
      split
      · exact ih n
      · rfl

/-- A line whose front holds more than blanks loses the margin of its front. -/
lemma dropIndent_append_of_mem (n : Nat) {x : List Char} (h : ∃ c ∈ x, isBlank c = false)
    (y : List Char) : dropIndent n (x ++ y) = dropIndent n x ++ y := by
  induction x generalizing n with
  | nil => simp at h
  | cons c x ih =>
    cases n with
    | zero => rfl
    | succ n =>
      rw [List.cons_append, dropIndent_cons, dropIndent_cons]
      split
      · next hc =>
        obtain ⟨d, hd, hblank⟩ := h
        rcases List.mem_cons.mp hd with rfl | hd
        · rw [not_margin hblank] at hc
          contradiction
        · exact ih n ⟨d, hd, hblank⟩
      · rfl

/-- Only blanks are dropped. -/
lemma mem_dropIndent (n : Nat) {c : Char} (hblank : isBlank c = false) :
    c ∈ dropIndent n row ↔ c ∈ row := by
  have hmargin : c ∉ margin n row := by
    intro hmem
    rw [blank_of_mem_margin hmem] at hblank
    contradiction
  have hrow := margin_append_dropIndent n row
  refine ⟨fun h => ?_, fun h => ?_⟩
  · rw [← hrow]
    exact List.mem_append_right _ h
  · rw [← hrow] at h
    exact (List.mem_append.mp h).resolve_left hmargin

lemma dropIndent_free (h : '\n' ∉ row) : '\n' ∉ dropIndent n row := by
  intro hmem
  rw [← margin_append_dropIndent n row] at h
  exact h (List.mem_append_right _ hmem)

/-- Moving text left changes its further lines. -/
lemma dedent_eq (n : Nat) (cs : List Char) : dedent n cs = relaid id (dropIndent n) cs := by
  obtain ⟨first, rest, hrows⟩ := exists_cons_of_splitChars '\n' cs
  rw [relaid_eq hrows, dedent, hrows]
  simp [below, List.flatMap_map]

end Cursor

namespace Printer

variable {depth column : Nat} {row x y : List Char}

/-- One line of a statement kept as written. -/
def keptLine (depth : Nat) (row : List Char) : List Char :=
  if (trimChars row).isEmpty then [] else line depth row

/-- A line that is moved left when it is read and right when it is written. -/
def movedLine (depth column : Nat) (row : List Char) : List Char :=
  keptLine depth (Cursor.dropIndent column row)

lemma keptLine_of_mem (h : ∃ c ∈ row, isBlank c = false) : keptLine depth row = line depth row := by
  obtain ⟨c, hc, hblank⟩ := h
  refine if_neg fun hempty => ?_
  rw [trimChars_isEmpty_iff.mp hempty c hc] at hblank
  contradiction

lemma mem_of_opens (h : Opens y) (x : List Char) : ∃ c ∈ x ++ y, isBlank c = false := by
  obtain ⟨c, hc, hblank⟩ := h
  exact ⟨c, List.mem_append_right _ (List.mem_of_mem_head? hc), hblank⟩

lemma mem_of_closes (h : Closes x) : ∃ c ∈ x, isBlank c = false := by
  obtain ⟨c, hc, hblank⟩ := h
  exact ⟨c, List.mem_of_getLast? hc, hblank⟩

lemma mem_dropIndent_of_mem (h : ∃ c ∈ row, isBlank c = false) :
    ∃ c ∈ Cursor.dropIndent column row, isBlank c = false := by
  obtain ⟨c, hc, hblank⟩ := h
  exact ⟨c, (Cursor.mem_dropIndent column hblank).mpr hc, hblank⟩

lemma keptLine_front (depth : Nat) (x : List Char) (h : Opens y) :
    keptLine depth (x ++ y) = line depth x ++ y := by
  rw [keptLine_of_mem (mem_of_opens h x), line, line, List.append_assoc]

lemma movedLine_front (depth column : Nat) (x : List Char) (h : Opens y) :
    movedLine depth column (x ++ y) = line depth (Cursor.dropIndent column x) ++ y := by
  rw [movedLine, Cursor.dropIndent_append_opens column x h, keptLine_front depth _ h]

lemma movedLine_back (depth column : Nat) (h : Closes x) (y : List Char) :
    movedLine depth column (x ++ y) = movedLine depth column x ++ y := by
  have hmem := mem_of_closes h
  have hmem' : ∃ c ∈ Cursor.dropIndent column x ++ y, isBlank c = false := by
    obtain ⟨c, hc, hblank⟩ := mem_dropIndent_of_mem hmem
    exact ⟨c, List.mem_append_left _ hc, hblank⟩
  rw [movedLine, movedLine, Cursor.dropIndent_append_of_mem column hmem, keptLine_of_mem hmem',
    keptLine_of_mem (mem_dropIndent_of_mem hmem), line, line, List.append_assoc]

lemma keptLine_free (h : '\n' ∉ row) : '\n' ∉ keptLine depth row := by
  unfold keptLine
  split
  · exact List.not_mem_nil
  · exact fun hmem => (List.mem_append.mp hmem).elim
      (fun hspace => absurd (List.eq_of_mem_replicate hspace) (by decide)) h

lemma movedLine_free (h : '\n' ∉ row) : '\n' ∉ movedLine depth column row :=
  keptLine_free (Cursor.dropIndent_free h)

/-- A line stays if it is empty, or if it is more than blanks behind a margin of its own depth. -/
lemma movedLine_eq_self_iff : movedLine depth column row = row ↔
    row = [] ∨ (∃ c ∈ row, isBlank c = false) ∧
      Cursor.margin column row = List.replicate (4 * depth) ' ' := by
  have hrow := Cursor.margin_append_dropIndent column row
  by_cases hblank : ∃ c ∈ row, isBlank c = false
  · have hne : row ≠ [] := by
      rintro rfl
      simp at hblank
    rw [movedLine, keptLine_of_mem (mem_dropIndent_of_mem hblank), line]
    constructor
    · intro h
      exact .inr ⟨hblank, (List.append_cancel_right (h.trans hrow.symm)).symm⟩
    · rintro (h | ⟨-, h⟩)
      · contradiction
      · rw [← h]
        exact hrow
  · have hall : ∀ c ∈ Cursor.dropIndent column row, isBlank c := by
      intro c hc
      by_contra hc'
      have hfalse := Bool.eq_false_iff.mpr hc'
      exact hblank ⟨c, (Cursor.mem_dropIndent column hfalse).mp hc, hfalse⟩
    rw [movedLine, keptLine, if_pos (trimChars_isEmpty_iff.mpr hall)]
    constructor
    · exact fun h => .inl h.symm
    · rintro (h | ⟨h, -⟩)
      · exact h.symm
      · contradiction

lemma join_lines (first : List Char) (rest : List (List Char)) :
    join ['\n'] (first :: rest) = first ++ below rest := by
  induction rest generalizing first with
  | nil => exact (List.append_nil first).symm
  | cons row rest ih =>
    rw [join, ih, List.append_assoc]
    · rfl
    · nofun

/-- A statement that is kept as written, line by line. -/
lemma join_verbatimLines (depth column : Nat) (cs : List Char) :
    join ['\n'] (verbatimLines depth (String.ofList (Cursor.dedent column cs))) =
      relaid (keptLine depth) (movedLine depth column) cs := by
  obtain ⟨first, rest, hrows⟩ := exists_cons_of_splitChars '\n' cs
  have hfree : ∀ row ∈ first :: rest.map (Cursor.dropIndent column), '\n' ∉ row := by
    have hfirst := not_mem_of_splitChars (hrows ▸ List.mem_cons_self)
    refine List.forall_mem_cons.mpr ⟨hfirst, fun row hrow => ?_⟩
    obtain ⟨old, hold, rfl⟩ := List.mem_map.mp hrow
    exact Cursor.dropIndent_free (not_mem_of_splitChars (hrows ▸ List.mem_cons_of_mem first hold))
  have hlines : verbatimLines depth (String.ofList (Cursor.dedent column cs)) =
      (first :: rest.map (Cursor.dropIndent column)).map (keptLine depth) := by
    rw [Cursor.dedent_eq, relaid_eq hrows, verbatimLines, String.toList_ofList, id,
      splitChars_below hfree]
    rfl
  rw [hlines, relaid_eq hrows, List.map_cons, join_lines, List.map_map]
  rfl

end Printer

/-- A string literal as it is written: letters, a quote, and so on up to the same quote. -/
def IsLiteral (token : List Char) : Prop :=
  ∃ letters quote inner, letters.all Token.isPrefixLetter ∧ Literal.isQuote quote ∧
    token = letters ++ quote :: inner ++ [quote]

namespace IsLiteral

variable {token : List Char}

lemma quote_solid {quote : Char} (h : Literal.isQuote quote) : isBlank quote = false := by
  rcases Bool.or_eq_true_iff.mp h with h | h <;>
  · rw [beq_iff_eq.mp h]
    rfl

lemma letter_solid {c : Char} (h : Token.isPrefixLetter c) : isBlank c = false := by
  rw [Token.isPrefixLetter, List.contains_iff_mem] at h
  unfold asciiLower at h
  split at h
  · next hupper =>
    have hbounds : 65 ≤ c.toNat ∧ c.toNat ≤ 90 := by
      simpa [Char.le_def, UInt32.le_iff_toNat_le] using hupper
    simp only [isBlank, Bool.or_eq_false_iff, Bool.and_eq_false_iff, decide_eq_false_iff_not,
      beq_eq_false_iff_ne]
    omega
  · have hall : ∀ d ∈ ['f', 't', 'r', 'b', 'u'], isBlank d = false := by decide
    exact hall c h

lemma closes (h : IsLiteral token) : Closes token := by
  obtain ⟨letters, quote, inner, -, hquote, rfl⟩ := h
  exact ⟨quote, List.getLast?_concat, quote_solid hquote⟩

lemma opens (h : IsLiteral token) (rest : List Char) : Opens (token ++ rest) := by
  obtain ⟨letters, quote, inner, hletters, hquote, rfl⟩ := h
  cases letters with
  | nil => exact ⟨quote, rfl, quote_solid hquote⟩
  | cons c letters =>
    rw [List.all_cons, Bool.and_eq_true] at hletters
    exact ⟨c, rfl, letter_solid hletters.1⟩

end IsLiteral

namespace Printer

/-- A literal in a statement that is kept as written. What is written around it does not depend on
it. -/
lemma statement_literal (depth column : Nat) (pre post : List Char) :
    ∃ before after, ∀ token, IsLiteral token →
      join ['\n'] (verbatimLines depth
          (String.ofList (Cursor.dedent column (pre ++ token ++ post)))) =
        before ++ relaid id (movedLine depth column) token ++ after := by
  have hkept (x : List Char) : ∃ x', ∀ y, Opens y → keptLine depth (x ++ y) = x' ++ y :=
    ⟨_, fun _ => keptLine_front depth x⟩
  have hmoved (x : List Char) : ∃ x', ∀ y, Opens y → movedLine depth column (x ++ y) = x' ++ y :=
    ⟨_, fun _ => movedLine_front depth column x⟩
  obtain ⟨before, hbefore⟩ := relaid_front hkept hmoved pre
  obtain ⟨after, hafter⟩ := relaid_back (fun x => movedLine_back depth column (x := x)) post
  refine ⟨before, after, fun token htoken => ?_⟩
  rw [join_verbatimLines, List.append_assoc, hbefore _ (htoken.opens post),
    hafter token htoken.closes, List.append_assoc]

/-- A literal in an expression that is kept as written. -/
lemma expression_literal (column : Nat) (pre post : List Char) :
    ∃ before after, ∀ token, IsLiteral token →
      Cursor.dedent column (pre ++ token ++ post) =
        before ++ relaid id (Cursor.dropIndent column) token ++ after := by
  have hid (x : List Char) : ∃ x', ∀ y, Opens y → id (x ++ y) = x' ++ y := ⟨x, fun _ _ => rfl⟩
  have hfront (x : List Char) :
      ∃ x', ∀ y, Opens y → Cursor.dropIndent column (x ++ y) = x' ++ y :=
    ⟨_, fun _ => Cursor.dropIndent_append_opens column x⟩
  have hback (x : List Char) (hx : Closes x) (y : List Char) :=
    Cursor.dropIndent_append_of_mem column (mem_of_closes hx) y
  obtain ⟨before, hbefore⟩ := relaid_front hid hfront pre
  obtain ⟨after, hafter⟩ := relaid_back hback post
  refine ⟨before, after, fun token htoken => ?_⟩
  rw [Cursor.dedent_eq, List.append_assoc, hbefore _ (htoken.opens post),
    hafter token htoken.closes, List.append_assoc]

lemma expr_verbatim (context : Level) (text : String) :
    expr context (.verbatim text) ∈ [text.toList, '(' :: text.toList ++ [')']] := by
  show verbatim text ∈ _
  unfold verbatim
  split
  · exact List.mem_cons_self
  · exact List.mem_cons_of_mem _ (List.mem_singleton.mpr rfl)

lemma dropIndent_eq_self_iff :
    Cursor.dropIndent column row = row ↔ Cursor.margin column row = [] := by
  have hrow := Cursor.margin_append_dropIndent column row
  constructor
  · intro h
    rw [h] at hrow
    exact List.append_left_eq_self.mp hrow
  · intro h
    rwa [h] at hrow

/-- A literal in a statement that is kept as written has its characters afterwards if and only if
each of its further lines is empty, or has more than blanks in it behind a margin that is the
indentation of the statement. One in an expression that is kept has them if and only if none of its
further lines has a margin where the expression starts behind one. -/
theorem literal_kept_iff (depth column : Nat) (pre post : List Char) :
    (∃ before after, ∀ (first stop : Cursor) (keyword : String) (started : Bool) token,
      first.column = column → first.textTo stop = pre ++ token ++ post → IsLiteral token →
      let written := relaid id (movedLine depth column) token
      join ['\n'] (lines depth keyword started (.verbatim (first.dedentedTo stop))) =
          before ++ written ++ after ∧
        (written = token ↔ ∀ row ∈ further token, row = [] ∨ (∃ c ∈ row, isBlank c = false) ∧
          Cursor.margin column row = List.replicate (4 * depth) ' ')) ∧
    ∃ before after, ∀ (first stop : Cursor) (context : Level) token,
      first.column = column → first.textTo stop = pre ++ token ++ post → IsLiteral token →
      let written := relaid id (Cursor.dropIndent column) token
      expr context (.verbatim (first.dedentedTo stop)) ∈
          [before ++ written ++ after, '(' :: (before ++ written ++ after) ++ [')']] ∧
        (written = token ↔ ∀ row ∈ further token, Cursor.margin column row = []) := by
  obtain ⟨before, after, hstatement⟩ := statement_literal depth column pre post
  obtain ⟨before', after', hexpression⟩ := expression_literal column pre post
  refine ⟨⟨before, after, ?_⟩, before', after', ?_⟩
  · rintro first stop keyword started token rfl htext htoken
    refine ⟨?_, ?_⟩
    · show join ['\n'] (verbatimLines depth (first.dedentedTo stop)) = _
      rw [Cursor.dedentedTo, htext]
      exact hstatement token htoken
    · rw [relaid_eq_self_iff fun row => movedLine_free]
      exact forall₂_congr fun row _ => movedLine_eq_self_iff
  · rintro first stop context token rfl htext htoken
    refine ⟨?_, ?_⟩
    · rw [← hexpression token htoken, ← htext]
      simpa only [Cursor.dedentedTo, String.toList_ofList] using
        expr_verbatim context (first.dedentedTo stop)
    · rw [relaid_eq_self_iff fun row => Cursor.dropIndent_free]
      exact forall₂_congr fun row _ => dropIndent_eq_self_iff

/-- `x: str = '''a` with `    b'''` below it, in a block and at the margin of its statement. -/
theorem indented_literal_kept :
    let token := "'''a\n    b'''".toList
    let first : Cursor := ⟨"x: str = ".toList ++ token, 10, 4, none, 5, 4⟩
    let stop : Cursor := ⟨[], 32, 8, some 0, 32, 4⟩
    first.column = 4 ∧ first.textTo stop = "x: str = ".toList ++ token ++ [] ∧ IsLiteral token ∧
      ∃ before after,
        join ['\n'] (lines 1 "if" true (.verbatim (first.dedentedTo stop))) =
          before ++ token ++ after := by
  intro token first stop
  have htext : first.textTo stop = "x: str = ".toList ++ token ++ [] := by decide +kernel
  have htoken : IsLiteral token := ⟨[], '\'', "''a\n    b''".toList, rfl, rfl, by decide +kernel⟩
  obtain ⟨⟨before, after, hwritten⟩, -⟩ := literal_kept_iff 1 4 "x: str = ".toList []
  obtain ⟨hlines, hkept⟩ := hwritten first stop "if" true token rfl htext htoken
  refine ⟨rfl, htext, htoken, before, after, ?_⟩
  have hstays := hkept.mpr (by decide +kernel)
  rw [hstays] at hlines
  exact hlines

/-- The same literal with `b'''` at the left margin gets a margin of four spaces, and as a formatted
literal behind `x = ` it loses one. -/
theorem literal_moved :
    let printed (source : String) := (Module.ofChars? source.toList).map Module.chars
    (printed "if a:\n    x: str = '''a\nb'''" = some "if a:\n    x: str = '''a\n    b'''".toList ∧
      ¬ "'''a\nb'''".toList <:+: "if a:\n    x: str = '''a\n    b'''".toList) ∧
    printed "x = f'''a\n    b'''" = some "x = (f'''a\nb''')".toList ∧
      ¬ "f'''a\n    b'''".toList <:+: "x = (f'''a\nb''')".toList := by
  decide +kernel

end Printer
end Unmask
