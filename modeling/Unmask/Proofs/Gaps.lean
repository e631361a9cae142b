import Mathlib.Tactic.Lemma
import Unmask.Syntax.Grammar.Basic

/-!
# Gaps between tokens

A cursor goes from token to token. Where spaces alone stand between two tokens, going over both is
going once over all of it, and the line does not end between them. Where a line ends, the cursor
notes the indentation of the next one.
-/
namespace Unmask.Cursor

/-- Whether a token can begin with a character: it is no blank and opens no comment. -/
def isSolid (c : Char) : Bool :=
  !(c == '\n' || c == ' ' || c == '\t' || c == '\r' || c == '\x0c' || isOtherBlank c ||
    c == '#' || c == '\\')

/-- Text at whose front a token can stand. -/
def Solid (cs : List Char) : Prop := cs.head?.any isSolid = true

instance (cs : List Char) : Decidable (Solid cs) := inferInstanceAs (Decidable (_ = true))

section Skip

variable {lastEnd indent width pos column : Nat} {ended : Bool} {cs : List Char}

lemma skip_solid (h : Solid cs) :
    skip lastEnd indent .plain ended width pos column cs =
      ⟨cs, pos, column, if ended then some width else none, lastEnd, indent⟩ := by
  cases cs with
  | nil => cases h
  | cons c cs =>
    have hc : isSolid c := h
    simp only [isSolid, Bool.not_eq_true', Bool.or_eq_false_iff] at hc
    obtain ⟨⟨⟨⟨⟨⟨⟨hline, hspace⟩, htab⟩, hreturn⟩, hfeed⟩, hother⟩, hcomment⟩, hslash⟩ := hc
    rw [skip.eq_def]
    simp [hline, hspace, htab, hreturn, hfeed, hother, hcomment, hslash]

lemma skip_space (cs : List Char) :
    skip lastEnd indent .plain ended width pos column (' ' :: cs) =
      skip lastEnd indent .plain ended (width + 1) (pos + 1) (column + 1) cs := by
  rw [skip.eq_def]
  rfl

lemma skip_spaces (k : Nat) (cs : List Char) :
    skip lastEnd indent .plain ended width pos column (List.replicate k ' ' ++ cs) =
      skip lastEnd indent .plain ended (width + k) (pos + k) (column + k) cs := by
  induction k generalizing width pos column with
  | zero => rfl
  | succ k ih =>
    rw [List.replicate_succ, List.cons_append, skip_space, ih]
    congr 1 <;> omega

/-- A source that begins with a token is read from its first character on. -/
lemma start_solid (h : Solid cs) : start cs = ⟨cs, 0, 0, none, 0, 0⟩ := by
  unfold start
  split
  · cases h
  · exact skip_solid h

end Skip

variable {c : Cursor} {a k n : Nat} {cs : List Char}

/-- What there is behind a token and the spaces after it. -/
lemma advance_eq (h : c.rest.drop a = List.replicate k ' ' ++ cs) (hcs : Solid cs) :
    c.advance a =
      ⟨cs, c.pos + a + k, columnAfter c.column (c.rest.take a) + k, none, c.pos + a, c.indent⟩ := by
  rw [advance, h, skip_spaces, skip_solid hcs]
  rfl

lemma columnAfter_append (column : Nat) (token rest : List Char) :
    columnAfter column (token ++ rest) = columnAfter (columnAfter column token) rest :=
  List.foldl_append

lemma columnAfter_spaces (column k : Nat) :
    columnAfter column (List.replicate k ' ') = column + k := by
  induction k generalizing column with
  | zero => rfl
  | succ k ih =>
    have hstep : columnAfter column (List.replicate (k + 1) ' ') =
        columnAfter (column + 1) (List.replicate k ' ') := rfl
    rw [hstep, ih]
    omega

/-- Going over one token and then another is going over both. -/
lemma advance_advance (h : c.rest.drop a = List.replicate k ' ' ++ cs) (hcs : Solid cs) (n : Nat) :
    (c.advance a).advance n = c.advance (a + k + n) := by
  have htake : c.rest.take (a + k + n) =
      c.rest.take a ++ (List.replicate k ' ' ++ cs.take n) := by
    rw [Nat.add_assoc, List.take_add, h, List.take_append]
    simp
  have hdrop : c.rest.drop (a + k + n) = cs.drop n := by
    rw [Nat.add_assoc, ← List.drop_drop, h, ← List.drop_drop, List.drop_left' (by simp)]
  rw [advance_eq h hcs]
  simp only [advance, htake, hdrop, columnAfter_append, columnAfter_spaces]
  congr 1 <;> omega

/-- A place in the same line, `n` characters behind another one, where `cs` stands. -/
structure Moved (c₀ : Cursor) (n : Nat) (c : Cursor) (cs : List Char) : Prop where
  rest : c.rest = cs
  advance : ∀ k, c.advance k = c₀.advance (n + k)
  lineEnd : 0 < n → c.lineEnd = none

lemma Moved.start (h : c.rest = cs) : Moved c 0 c cs := by
  refine ⟨h, fun k => ?_, fun h => absurd h (Nat.lt_irrefl 0)⟩
  rw [Nat.zero_add]

lemma Moved.over {c₀ : Cursor} (token : List Char) (k : Nat)
    (h : Moved c₀ n c (token ++ (List.replicate k ' ' ++ cs))) (hcs : Solid cs) :
    Moved c₀ (n + token.length + k) (c.advance token.length) cs := by
  have hdrop : c.rest.drop token.length = List.replicate k ' ' ++ cs := by
    rw [h.rest, List.drop_left]
  refine ⟨?_, fun m => ?_, fun _ => ?_⟩
  · rw [advance_eq hdrop hcs]
  · rw [advance_advance hdrop hcs, h.advance]
    congr 1
    omega
  · rw [advance_eq hdrop hcs]

/-- To the next token, which follows at once. -/
lemma Moved.next {c₀ : Cursor} (token : List Char) (h : Moved c₀ n c (token ++ cs))
    (hcs : Solid cs) :
    Moved c₀ (n + token.length) (c.advance token.length) cs :=
  h.over token 0 hcs

/-- To the next token, over a space. -/
lemma Moved.space {c₀ : Cursor} (token : List Char) (h : Moved c₀ n c (token ++ ' ' :: cs))
    (hcs : Solid cs) :
    Moved c₀ (n + token.length + 1) (c.advance token.length) cs :=
  h.over token 1 hcs

/-- Behind a token, where another one begins at once. -/
lemma moved_advance (h : c.rest.drop n = cs) (hcs : Solid cs) : Moved c n (c.advance n) cs := by
  have hdrop : c.rest.drop n = List.replicate 0 ' ' ++ cs := h
  refine ⟨?_, fun k => ?_, fun _ => ?_⟩
  · rw [advance_eq hdrop hcs]
  · rw [advance_advance hdrop hcs, Nat.add_zero]
  · rw [advance_eq hdrop hcs]

/-- An operand may stand behind an operator in the same line. -/
lemma operand?_eq (h : (c.advance n).lineEnd = none) : c.operand? n = some (c.advance n) := by
  have hcut : (c.advance n).isCutOff = false := by rw [isCutOff, isDedented, h, Bool.false_and]
  rw [operand?, hcut]
  rfl

/-- Behind the last token the source ends, and its last line with it. -/
lemma advance_end (h : c.rest.drop n = []) :
    (c.advance n).rest = [] ∧ (c.advance n).lineEnd = some 0 := by
  rw [advance, h, skip]
  exact ⟨rfl, rfl⟩

/-- Going behind a part of a token and then over the rest is going over the token. -/
lemma step_advance (c : Cursor) (a n : Nat) : (c.step a).advance n = c.advance (a + n) := by
  simp only [step, advance, List.drop_drop, List.take_add, columnAfter_append, Nat.add_assoc]

lemma lastEnd_skip (lastEnd indent : Nat) (gap : Gap) (ended : Bool) (width pos column : Nat)
    (cs : List Char) : (skip lastEnd indent gap ended width pos column cs).lastEnd = lastEnd := by
  fun_induction skip <;> grind

/-- The end of a token is remembered, whatever follows it. -/
lemma lastEnd_advance (c : Cursor) (n : Nat) : (c.advance n).lastEnd = c.pos + n :=
  lastEnd_skip ..

lemma textTo_advance (c : Cursor) (n : Nat) : c.textTo (c.advance n) = c.rest.take n := by
  rw [textTo, lastEnd_advance, Nat.add_sub_cancel_left]

end Unmask.Cursor
