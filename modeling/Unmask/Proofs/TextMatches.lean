import Mathlib.Tactic.Lemma
import Unmask.Text.Basic

/-!
# Places where a rule succeeds

The matches of a rule in a text are found from the front, each behind the one before it. The
shortest row in front of a place where a rule succeeds has no such place within it, and in front of
the first place where a rule succeeds there is none.
-/
namespace Unmask.Text

variable {α : Type} {found : α}

section AllMatches

variable {rule : List Char → Option (α × List Char)} {c : Char} {front rest : List Char}

lemma matchesFrom_covered (rule : List Char → Option (α × List Char)) (front rest : List Char) :
    matchesFrom rule front.length (front ++ rest) = allMatches rule rest := by
  induction front with
  | nil => rfl
  | cons c front ih => exact ih

lemma allMatches_of_none (h : rule (c :: rest) = none) :
    allMatches rule (c :: rest) = allMatches rule rest := by
  rw [allMatches, matchesFrom, h]
  rfl

/-- The next match is looked for behind a match. -/
lemma allMatches_of_some (h : rule (c :: (front ++ rest)) = some (found, rest)) :
    allMatches rule (c :: (front ++ rest)) = found :: allMatches rule rest := by
  have hcovered : (front ++ rest).length - rest.length = front.length := by
    rw [List.length_append]
    omega
  rw [allMatches, matchesFrom, h]
  dsimp only
  rw [hcovered, matchesFrom_covered]

end AllMatches

section Rows

variable {rule : List Char → Option α} {cs row rest : List Char}

/-- Where a rule succeeds for the first time. -/
structure FirstPlace (rule : List Char → Option α) (before rest : List Char) (found : α) :
    Prop where
  succeeds : rule rest = some found
  fails : ∀ front back, before = front ++ back → back ≠ [] → rule (back ++ rest) = none

lemma FirstPlace.cons {c : Char} {before : List Char} (hfail : rule (c :: (before ++ rest)) = none)
    (h : FirstPlace rule before rest found) : FirstPlace rule (c :: before) rest found := by
  refine ⟨h.succeeds, fun front back hcut hne => ?_⟩
  cases front with
  | nil =>
    obtain rfl : back = c :: before := hcut.symm
    exact hfail
  | cons d front => exact h.fails front back (List.cons.inj hcut).2 hne

/-- What is found first stands behind a text in which the rule succeeds nowhere. -/
lemma firstMatch?_eq_some_iff :
    firstMatch? rule cs = some found ↔
      ∃ before rest, cs = before ++ rest ∧ FirstPlace rule before rest found := by
  constructor
  · intro h
    induction cs with
    | nil => exact ⟨[], [], rfl, h, by simp⟩
    | cons c cs ih =>
      rw [firstMatch?] at h
      split at h
      · next hrule => exact ⟨[], c :: cs, rfl, hrule.trans h, by simp⟩
      · next hrule =>
        obtain ⟨before, rest, rfl, hplace⟩ := ih h
        exact ⟨c :: before, rest, rfl, hplace.cons hrule⟩
  · rintro ⟨before, rest, rfl, hplace⟩
    induction before with
    | nil =>
      have hrule := hplace.succeeds
      cases rest with
      | nil => exact hrule
      | cons c rest =>
        rw [List.nil_append, firstMatch?, hrule]
    | cons c before ih =>
      have hfail : rule (c :: (before ++ rest)) = none :=
        hplace.fails [] (c :: before) rfl (List.cons_ne_nil c before)
      rw [List.cons_append, firstMatch?, hfail]
      exact ih ⟨hplace.succeeds, fun front back hcut =>
        hplace.fails (c :: front) back (congrArg (c :: ·) hcut)⟩

/-- Nothing is found in a text in which the rule succeeds nowhere. -/
lemma firstMatch?_eq_none_iff :
    firstMatch? rule cs = none ↔ ∀ front back, cs = front ++ back → rule back = none := by
  constructor
  · intro h front back hcut
    refine Option.eq_none_iff_forall_ne_some.mpr fun a hrule => ?_
    induction front generalizing cs with
    | nil =>
      obtain rfl : cs = back := hcut
      unfold firstMatch? at h
      split at h <;> simp_all
    | cons c front ih =>
      obtain rfl : cs = c :: (front ++ back) := hcut
      rw [firstMatch?] at h
      split at h
      · contradiction
      · exact ih h rfl
  · intro h
    induction cs with
    | nil => exact h [] [] rfl
    | cons c cs ih =>
      rw [firstMatch?, h [] (c :: cs) rfl]
      exact ih fun front back hcut => h (c :: front) back (congrArg (c :: ·) hcut)

/-- A row of one line, in front of a place where a rule succeeds and without such a place in it. -/
structure ShortestRow (rule : List Char → Option α) (row rest : List Char) (found : α) : Prop where
  nonempty : row ≠ []
  line : '\n' ∉ row
  succeeds : rule rest = some found
  fails : ∀ front back, row = front ++ back → front ≠ [] → back ≠ [] → rule (back ++ rest) = none

lemma shortestRow?_eq_some_iff :
    shortestRow? rule cs = some (row, found) ↔
      ∃ rest, cs = row ++ rest ∧ ShortestRow rule row rest found := by
  constructor
  · intro h
    induction cs generalizing row with
    | nil => contradiction
    | cons c cs ih =>
      rw [shortestRow?] at h
      obtain ⟨hc, h⟩ := Option.ite_none_left_eq_some.mp h
      have hline : c ≠ '\n' := fun heq => hc (beq_iff_eq.mpr heq)
      split at h
      · next hrule =>
        obtain ⟨rfl, rfl⟩ := Prod.mk.inj (Option.some.inj h)
        refine ⟨cs, rfl, List.cons_ne_nil c [], ?_, hrule, fun front back hcut hfront hback => ?_⟩
        · exact fun hmem => hline (List.mem_singleton.mp hmem).symm
        · rcases List.append_eq_singleton_iff.mp hcut.symm with ⟨rfl, -⟩ | ⟨-, rfl⟩ <;>
            contradiction
      · next hrule =>
        obtain ⟨⟨row, a⟩, hrow, heq⟩ := Option.map_eq_some_iff.mp h
        obtain ⟨rfl, rfl⟩ := Prod.mk.inj heq
        obtain ⟨rest, rfl, hshort⟩ := ih hrow
        refine ⟨rest, rfl, List.cons_ne_nil c row, ?_, hshort.succeeds,
          fun front back hcut hfront hback => ?_⟩
        · exact List.not_mem_cons_of_ne_of_not_mem hline.symm hshort.line
        · obtain ⟨d, front, rfl⟩ := List.exists_cons_of_ne_nil hfront
          obtain ⟨-, hcut⟩ := List.cons.inj hcut
          cases front with
          | nil =>
            obtain rfl : row = back := hcut
            exact hrule
          | cons d front =>
            exact hshort.fails (d :: front) back hcut (List.cons_ne_nil d front) hback
  · rintro ⟨rest, rfl, hshort⟩
    induction row with
    | nil => exact absurd rfl hshort.nonempty
    | cons c row ih =>
      have hc : (c == '\n') = false :=
        beq_eq_false_iff_ne.mpr fun heq => hshort.line (heq ▸ List.mem_cons_self)
      rw [List.cons_append, shortestRow?, hc, if_neg Bool.false_ne_true]
      by_cases hrow : row = []
      · rw [hrow, List.nil_append, hshort.succeeds]
      · have hfail : rule (row ++ rest) = none :=
          hshort.fails [c] row rfl (List.cons_ne_nil c []) hrow
        rw [hfail, ih ⟨hrow, fun hmem => hshort.line (List.mem_cons_of_mem c hmem),
          hshort.succeeds, fun front back hcut _ => hshort.fails (c :: front) back
            (congrArg (c :: ·) hcut) (List.cons_ne_nil c front)⟩]
        rfl

end Rows

end Unmask.Text
