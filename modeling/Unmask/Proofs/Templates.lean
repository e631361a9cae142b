import Mathlib.Tactic.Lemma
import Mathlib.Tactic.ByContra

/-!
# Texts with gaps for names

A template is a text in which names stand for gaps. It is known by what it becomes when names are
filled in: two templates that always become the same text have the same names in the same order.
Names are filled in that are longer than all texts between them, so that a place in the filled text
belongs to the same gap in both.
-/
namespace Unmask

/-- A piece of a text with gaps: a text, or a gap for what a name becomes. -/
inductive Piece where
  | text (chars : List Char)
  | name (id : String)

/-- A text with gaps. -/
abbrev Template := List Piece

variable {s : String → String}

def Piece.fill (s : String → String) : Piece → List Char
  | .text chars => chars
  | .name id => (s id).toList

def Piece.name? : Piece → Option String
  | .text _ => none
  | .name id => some id

namespace Template

/-- The text that a template becomes. -/
def fill (s : String → String) (t : Template) : List Char := t.flatMap (Piece.fill s)

/-- The names of a template in order. -/
def names (t : Template) : List String := t.filterMap Piece.name?

/-- The length of the text outside of gaps. -/
def textLength : Template → Nat
  | [] => 0
  | .text chars :: rest => chars.length + textLength rest
  | .name _ :: rest => textLength rest

variable {t t' : Template}

lemma fill_text (chars : List Char) (rest : Template) :
    fill s (.text chars :: rest) = chars ++ fill s rest := by rfl

lemma fill_name (id : String) (rest : Template) :
    fill s (.name id :: rest) = (s id).toList ++ fill s rest := by rfl

lemma fill_append : fill s (t ++ t') = fill s t ++ fill s t' := List.flatMap_append

lemma names_append : names (t ++ t') = names t ++ names t' := List.filterMap_append

/-- Where names become texts of one length, a filled template is as long as its texts and gaps. -/
lemma length_fill {n : Nat} (hs : ∀ id, (s id).length = n) (t : Template) :
    (fill s t).length = textLength t + n * (names t).length := by
  induction t with
  | nil => rfl
  | cons piece rest ih =>
    cases piece with
    | text chars =>
      rw [fill_text, List.length_append, ih]
      exact (Nat.add_assoc ..).symm
    | name id =>
      rw [fill_name, List.length_append, String.length_toList, hs, ih]
      show n + (textLength rest + n * (names rest).length) =
        textLength rest + n * ((names rest).length + 1)
      rw [Nat.mul_succ]
      omega

/-- A name that is filled in as a row of `n` equal characters. -/
def blocks (n : Nat) (c : String → Char) (id : String) : String :=
  String.ofList (List.replicate n (c id))

lemma length_blocks (n : Nat) (c : String → Char) (id : String) : (blocks n c id).length = n := by
  simp [blocks]

/-- Where blocks are longer than all texts, a place that no text can move out of a block shows what
the block is of. -/
lemma getElem?_fill {n : Nat} {c : String → Char} (t : Template) {k l : Nat} (hl : l < n)
    (htext : textLength t ≤ l) (hk : k < (names t).length) :
    (fill (blocks n c) t)[n * k + l]? = ((names t).map c)[k]? := by
  induction t generalizing k l with
  | nil => contradiction
  | cons piece rest ih =>
    cases piece with
    | text chars =>
      have hlength : chars.length + textLength rest ≤ l := htext
      have hplace : n * k + l - chars.length = n * k + (l - chars.length) := by omega
      rw [fill_text, List.getElem?_append_right (by omega), hplace]
      exact ih (by omega) (by omega) hk
    | name id =>
      have hblock : (blocks n c id).toList = List.replicate n (c id) := by simp [blocks]
      rw [fill_name, hblock]
      cases k with
      | zero =>
        rw [List.getElem?_append_left (by simp; omega), List.getElem?_replicate, if_pos (by omega)]
        rfl
      | succ k =>
        have hplace : n * (k + 1) + l = n + (n * k + l) := by rw [Nat.mul_succ]; omega
        rw [hplace, List.getElem?_append_right (by simp), List.length_replicate,
          Nat.add_sub_cancel_left]
        exact ih hl htext (Nat.lt_of_succ_lt_succ hk)

/-- Templates that always become the same text have the same names in the same order. -/
theorem names_eq (h : ∀ s, fill s t = fill s t') : names t = names t' := by
  have hlengths (n : Nat) :
      textLength t + n * (names t).length = textLength t' + n * (names t').length := by
    have hs := length_blocks n fun _ => 'x'
    rw [← length_fill hs, ← length_fill hs, h]
  have htext : textLength t = textLength t' := by simpa using hlengths 0
  have hcount : (names t).length = (names t').length := by
    have hone := hlengths 1
    omega
  apply List.ext_getElem hcount
  intro k hk hk'
  by_contra hne
  -- The two names are told apart by the characters that they become.
  let c (id : String) : Char := if id = (names t)[k] then 'a' else 'b'
  have hsame : ((names t).map c)[k]? = ((names t').map c)[k]? := by
    have hl := Nat.lt_succ_self (textLength t)
    rw [← getElem?_fill t hl (Nat.le_refl _) hk, h,
      getElem?_fill t' hl (Nat.le_of_eq htext.symm) hk']
  rw [List.getElem?_map, List.getElem?_map, List.getElem?_eq_getElem hk,
    List.getElem?_eq_getElem hk'] at hsame
  have hchars := Option.some.inj hsame
  simp only [c, if_pos, if_neg (Ne.symm hne)] at hchars
  contradiction

end Template
end Unmask
