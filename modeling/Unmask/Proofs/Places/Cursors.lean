import Unmask.Proofs.Gaps

/-!
# Places behind a place

A cursor holds what is left of the source at its place. No rule goes back: it stops at the place
where it began, or behind it. What a rule reads is followed step by step, from one place to the
next.
-/
namespace Unmask

namespace Cursor

/-- What is left of a text behind the blanks, comments and continuations at its front. -/
def afterGap (cs : List Char) : List Char := (skip 0 0 .plain false 0 0 0 cs).rest

lemma rest_skip (lastEnd indent : Nat) (gap : Gap) (ended : Bool) (width pos column : Nat)
    (cs : List Char) :
    (skip lastEnd indent gap ended width pos column cs).rest =
      (skip 0 0 gap false 0 0 0 cs).rest := by
  suffices h : ∀ l i e w p q l' i' e' w' p' q',
      (skip l i gap e w p q cs).rest = (skip l' i' gap e' w' p' q' cs).rest from h ..
  intro l i e w p q l' i' e' w' p' q'
  fun_induction skip l i gap e w p q cs generalizing l' i' e' w' p' q' <;>
    rw [skip.eq_def l' i' _ e' w' p' q'] <;> grind

/-- Between two tokens nothing but a gap is left out. -/
lemma rest_advance (c : Cursor) (n : Nat) : (c.advance n).rest = afterGap (c.rest.drop n) :=
  rest_skip ..

/-- Whether a cursor stands in a source, at a place or behind it. -/
structure Behind (src : List Char) (p : Nat) (c : Cursor) : Prop where
  rest : c.rest = src.drop c.pos
  le : p ≤ c.pos

section Steps

variable {src : List Char} {p : Nat} {c c' : Cursor}

lemma drop_of_cons {rest : List Char} {d : Char} {n : Nat} (h : d :: rest = src.drop n) :
    rest = src.drop (n + 1) := by
  rw [← List.tail_drop, ← h, List.tail_cons]

/-- Each character that is skipped counts. -/
lemma behind_skip {cs : List Char} (lastEnd indent : Nat) (gap : Gap) (ended : Bool)
    (width : Nat) {pos : Nat} (column : Nat) (h : cs = src.drop pos) :
    (skip lastEnd indent gap ended width pos column cs).Behind src pos := by
  fun_induction skip lastEnd indent gap ended width pos column cs <;>
    grind [Behind, drop_of_cons]

lemma behind_start (src : List Char) : (start src).Behind src 0 := by
  unfold start
  split
  · next rest =>
    have hmark : rest = ('\uFEFF' :: rest).drop 1 := rfl
    exact ⟨(behind_skip 0 0 .plain false 0 3 hmark).rest, Nat.zero_le _⟩
  · exact behind_skip 0 0 .plain false 0 0 List.drop_zero.symm

lemma Behind.itself (h : c.Behind src p) : c.Behind src c.pos := ⟨h.rest, Nat.le_refl _⟩

lemma Behind.weaken {q : Nat} (h : c.Behind src q) (hle : p ≤ q) : c.Behind src p :=
  ⟨h.rest, Nat.le_trans hle h.le⟩

lemma Behind.step (h : c.Behind src p) (n : Nat) : (c.step n).Behind src p := by
  refine ⟨?_, Nat.le_trans h.le (Nat.le_add_right c.pos n)⟩
  rw [Cursor.step, h.rest, List.drop_drop]

lemma Behind.advance (h : c.Behind src p) (n : Nat) : (c.advance n).Behind src p := by
  have hskip : (c.advance n).Behind src (c.pos + n) :=
    behind_skip _ _ .plain false 0 _ (by rw [h.rest, List.drop_drop])
  exact hskip.weaken (Nat.le_trans h.le (Nat.le_add_right c.pos n))

/-- The indentation of the block is no matter of the place. -/
lemma Behind.indented (h : c.Behind src p) (n : Nat) : { c with indent := n }.Behind src p :=
  ⟨h.rest, h.le⟩

end Steps
end Cursor

open Cursor

namespace Grammar

variable {α β : Type} {src : List Char} {p : Nat} {c c' : Cursor}

/-- A step, if it can be made, leads behind a place. -/
def Goes (src : List Char) (p : Nat) (r : Option Cursor) : Prop := ∀ c, r = some c → c.Behind src p

/-- What is read, if anything, is as it should be, and the place behind it is behind a place. -/
def Lands (src : List Char) (p : Nat) (P : α → Prop) (r : Option (α × Cursor)) : Prop :=
  ∀ x c, r = some (x, c) → P x ∧ c.Behind src p

/-- A rule reads what is as it should be, wherever it begins in a source. -/
def Yields (src : List Char) (P : α → Prop) (rule : Rule α) : Prop :=
  ∀ ⦃p c⦄, c.Behind src p → Lands src p P (rule c)

/-- A rule of which only the place matters where it stops. -/
abbrev Passes (src : List Char) (rule : Rule α) : Prop := Yields src (fun _ => True) rule

section Following

variable {P : α → Prop} {Q : β → Prop}

lemma Goes.none : Goes src p none := nofun

lemma Goes.some (h : c.Behind src p) : Goes src p (some c) := by
  rintro _ ⟨⟩
  exact h

lemma Goes.ite {b : Prop} [Decidable b] {r s : Option Cursor} (hr : Goes src p r)
    (hs : Goes src p s) : Goes src p (if b then r else s) := by
  split
  · exact hr
  · exact hs

lemma Goes.step {r : Option Cursor} {k : Cursor → Option Cursor} (h : Goes src p r)
    (hk : ∀ c, c.Behind src p → Goes src p (k c)) : Goes src p (r.bind k) := by
  intro c' heq
  obtain ⟨c, hc, heq⟩ := Option.bind_eq_some_iff.mp heq
  exact hk c (h c hc) c' heq

lemma Goes.bind {r : Option Cursor} {k : Cursor → Option (α × Cursor)} (h : Goes src p r)
    (hk : ∀ c, c.Behind src p → Lands src p P (k c)) : Lands src p P (r >>= k) := by
  intro x c' heq
  obtain ⟨c, hc, heq⟩ := Option.bind_eq_some_iff.mp heq
  exact hk c (h c hc) x c' heq

lemma Lands.none : Lands src p P none := nofun

lemma Lands.some {x : α} (hx : P x) (h : c.Behind src p) : Lands src p P (some (x, c)) := by
  rintro _ _ ⟨⟩
  exact ⟨hx, h⟩

lemma Lands.bind {r : Option (β × Cursor)} {k : β × Cursor → Option (α × Cursor)}
    (h : Lands src p Q r) (hk : ∀ x c, Q x → c.Behind src p → Lands src p P (k (x, c))) :
    Lands src p P (r >>= k) := by
  intro x c' heq
  obtain ⟨⟨y, c⟩, hy, heq⟩ := Option.bind_eq_some_iff.mp heq
  obtain ⟨hQ, hc⟩ := h y c hy
  exact hk y c hQ hc x c' heq

/-- What is looked up on the way has no place. -/
lemma Lands.given {r : Option β} {k : β → Option (α × Cursor)} (hk : ∀ x, Lands src p P (k x)) :
    Lands src p P (r >>= k) := by
  intro x c heq
  obtain ⟨y, -, heq⟩ := Option.bind_eq_some_iff.mp heq
  exact hk y x c heq

lemma Lands.map {r : Option (β × Cursor)} {k : β × Cursor → α × Cursor} (h : Lands src p Q r)
    (hk : ∀ x c, Q x → c.Behind src p → P (k (x, c)).1 ∧ (k (x, c)).2.Behind src p) :
    Lands src p P (r.map k) := by
  intro x c' heq
  obtain ⟨⟨y, c⟩, hy, heq⟩ := Option.map_eq_some_iff.mp heq
  obtain ⟨hQ, hc⟩ := h y c hy
  have hxc := hk y c hQ hc
  rw [heq] at hxc
  exact hxc

lemma Lands.goes {r : Option (α × Cursor)} (h : Lands src p P r) :
    Goes src p (r.map Prod.snd) := by
  intro c heq
  obtain ⟨⟨x, c⟩, hx, rfl⟩ := Option.map_eq_some_iff.mp heq
  exact (h x c hx).2

/-- Where two ways meet again, what follows is followed once. -/
lemma Goes.join {b : Prop} [Decidable b] {r s : Option Cursor}
    {k : Cursor → Option (α × Cursor)} (h : Goes src p (if b then r else s))
    (hk : ∀ c, c.Behind src p → Lands src p P (k c)) :
    Lands src p P (if b then r >>= k else s >>= k) := by
  split at h
  · next hb => exact (if_pos hb).symm ▸ h.bind hk
  · next hb => exact (if_neg hb).symm ▸ h.bind hk

lemma Lands.join {b : Prop} [Decidable b] {r s : Option (β × Cursor)}
    {k : β × Cursor → Option (α × Cursor)} (h : Lands src p Q (if b then r else s))
    (hk : ∀ x c, Q x → c.Behind src p → Lands src p P (k (x, c))) :
    Lands src p P (if b then r >>= k else s >>= k) := by
  split at h
  · next hb => exact (if_pos hb).symm ▸ h.bind hk
  · next hb => exact (if_neg hb).symm ▸ h.bind hk

lemma Lands.imp {P' : α → Prop} {r : Option (α × Cursor)} (h : Lands src p P r)
    (himp : ∀ x, P x → P' x) : Lands src p P' r :=
  fun x c heq => (h x c heq).imp_left (himp x)

lemma Lands.ite {b : Prop} [Decidable b] {r s : Option (α × Cursor)} (hr : Lands src p P r)
    (hs : Lands src p P s) : Lands src p P (if b then r else s) := by
  split
  · exact hr
  · exact hs

end Following

section Tokens

variable {P : α → Prop}

lemma afterWord_behind (h : c.Behind src p) : c.afterWord.Behind src p := h.advance _

lemma operand?_goes (h : c.Behind src p) (n : Nat) : Goes src p (c.operand? n) :=
  .ite .none (.some (h.advance n))

lemma symbol?_goes (h : c.Behind src p) (s : String) : Goes src p (c.symbol? s) :=
  .ite (.some (h.advance _)) .none

lemma keyword?_goes (h : c.Behind src p) (w : String) : Goes src p (c.keyword? w) :=
  .ite (operand?_goes h _) .none

lemma name?_lands (h : c.Behind src p) : Lands src p (fun _ => True) c.name? :=
  .ite .none (.some trivial (h.advance _))

lemma within_yields {rule : Rule α} (h : Yields src P rule) (f : Frame) :
    Yields src P (within f rule) := fun _ _ hc => .ite .none (h hc)

/-- All elements of a row are as the rule reads them. -/
lemma elements_yields {rule : Rule α} (h : Yields src P rule) (n : Nat) {done : List α}
    (hdone : ∀ x ∈ done, P x) (comma : Bool) :
    Yields src (fun r => ∀ x ∈ r.1, P x) (elements rule n done comma) := by
  intro p c hc
  induction n generalizing done comma p c with
  | zero => exact .none
  | succ n ih =>
    have hrow : ∀ x ∈ done.reverse, P x := by simpa using hdone
    unfold elements
    split
    · exact .some hrow hc
    · next c₁ hcomma =>
      have hc₁ := symbol?_goes hc _ c₁ hcomma
      split
      · next x c₂ hrule =>
        obtain ⟨hx, hc₂⟩ := h hc₁ x c₂ hrule
        exact ih (List.forall_mem_cons.mpr ⟨hx, hdone⟩) true hc₂
      · exact .some hrow hc₁

lemma elements_single {rule : Rule α} (h : Yields src P rule) (n : Nat) {x : α} (hx : P x) :
    Yields src (fun r => ∀ x ∈ r.1, P x) (elements rule n [x] false) :=
  elements_yields h n (List.forall_mem_singleton.mpr hx) false

lemma many_yields {rule : Rule α} (h : Yields src P rule) (n : Nat) {done : List α}
    (hdone : ∀ x ∈ done, P x) : Yields src (fun xs => ∀ x ∈ xs, P x) (many rule n done) := by
  intro p c hc
  induction n generalizing done p c with
  | zero => exact .none
  | succ n ih =>
    unfold many
    split
    · exact .some (by simpa using hdone) hc
    · next x c₁ hrule =>
      obtain ⟨hx, hc₁⟩ := h hc x c₁ hrule
      exact ih (List.forall_mem_cons.mpr ⟨hx, hdone⟩) hc₁

lemma many_nil {rule : Rule α} (h : Yields src P rule) (n : Nat) :
    Yields src (fun xs => ∀ x ∈ xs, P x) (many rule n []) :=
  many_yields h n (List.forall_mem_nil _)

end Tokens

end Grammar
end Unmask
