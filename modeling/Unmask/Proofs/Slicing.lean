import Mathlib.Tactic.Linarith
import Mathlib.Tactic.Ring
import Unmask.Proofs.Evaluation
import Unmask.Value.Compare

/-!
# Slices walk

The places of a slice are computed from their number. They are those of a walk from the start in
steps, all of them lie in the sequence, and so a slice of a value is what the evaluator gives.
-/
namespace Unmask.Evaluation
open Value

lemma resolve_eq (b : Bounds) (length : Nat) :
    b.resolve length = (firstPlace length (b.step.getD 1) b.lower,
      endPlace length (b.step.getD 1) b.upper, b.step.getD 1) := by
  obtain ⟨lower, upper, step⟩ := b
  by_cases h : step.getD 1 < 0
  · cases lower <;> cases upper <;>
      simp [Bounds.resolve, Bounds.clamp, firstPlace, endPlace, adjusted, h] <;> grind
  · cases lower <;> cases upper <;>
      simp [Bounds.resolve, Bounds.clamp, firstPlace, endPlace, adjusted, h] <;> grind

/-- Rounding up a distance that is not positive gives no steps. -/
lemma steps_stopped {distance size : Int} (hs : 0 < size) (hd : distance ≤ 0) :
    ((distance + size - 1).fdiv size).toNat = 0 := by
  have hlt : (distance + size - 1) / size < 1 := Int.ediv_lt_of_lt_mul hs (by linarith)
  rw [Int.fdiv_eq_ediv_of_nonneg _ hs.le]
  omega

/-- A positive distance is one step longer than what is left behind a step. -/
lemma steps_next {distance size : Int} (hs : 0 < size) (hd : 0 < distance) :
    ((distance + size - 1).fdiv size).toNat =
      ((distance - size + size - 1).fdiv size).toNat + 1 := by
  have hsplit : distance + size - 1 = distance - size + size - 1 + 1 * size := by ring
  have hrest : 0 ≤ (distance - size + size - 1) / size := Int.ediv_nonneg (by omega) hs.le
  rw [Int.fdiv_eq_ediv_of_nonneg _ hs.le, Int.fdiv_eq_ediv_of_nonneg _ hs.le, hsplit,
    Int.add_mul_ediv_right _ _ hs.ne']
  omega

lemma count_up {start stop step : Int} (h : 0 < step) :
    Bounds.count start stop step = ((stop - start + step - 1).fdiv step).toNat := by
  rw [Bounds.count, if_pos h]

lemma count_down {start stop step : Int} (h : step < 0) :
    Bounds.count start stop step = ((start - stop + -step - 1).fdiv (-step)).toNat := by
  rw [Bounds.count, if_neg (by omega), ← sub_eq_add_neg]

lemma count_stopped {start stop step : Int} (hs : step ≠ 0)
    (h : ¬(0 < step ∧ start < stop ∨ step < 0 ∧ stop < start)) :
    Bounds.count start stop step = 0 := by
  rcases lt_or_gt_of_ne hs with hneg | hpos
  · rw [count_down hneg]
    exact steps_stopped (by omega) (by omega)
  · rw [count_up hpos]
    exact steps_stopped hpos (by omega)

lemma count_next {start stop step : Int}
    (h : 0 < step ∧ start < stop ∨ step < 0 ∧ stop < start) :
    Bounds.count start stop step = Bounds.count (start + step) stop step + 1 := by
  rcases h with ⟨hpos, hlt⟩ | ⟨hneg, hlt⟩
  · rw [count_up hpos, count_up hpos, steps_next hpos (by omega)]
    congr 4
    ring
  · rw [count_down hneg, count_down hneg, steps_next (by omega) (by omega)]
    congr 4
    ring

/-- A walk is as long as the number of places says. -/
theorem progression_eq {start stop step : Int} (hs : step ≠ 0) :
    progression start stop step =
      (List.range (Bounds.count start stop step)).map fun i : Nat => start + step * i := by
  fun_induction progression start stop step with
  | case1 start h ih =>
    rw [count_next h, List.range_succ_eq_map, ih]
    simp only [List.map_cons, List.map_map]
    congr 1
    · simp
    · apply List.map_congr_left
      intro i _
      simp only [Function.comp_apply]
      push_cast
      ring
  | case2 start h => simp [count_stopped hs h]

/-- A walk stays between its start and its stop. -/
theorem mem_progression {start stop step p : Int} (hp : p ∈ progression start stop step) :
    0 < step ∧ start ≤ p ∧ p < stop ∨ step < 0 ∧ stop < p ∧ p ≤ start := by
  fun_induction progression start stop step with
  | case1 start h ih =>
    rcases List.mem_cons.mp hp with rfl | hp
    · omega
    · have := ih hp
      omega
  | case2 start h => simp at hp

lemma firstPlace_bounds (length : Nat) (step : Int) (lower : Option Int) :
    (0 ≤ step → 0 ≤ firstPlace length step lower) ∧
      (step < 0 → firstPlace length step lower < length) := by
  cases lower <;> simp only [firstPlace, adjusted] <;> grind

lemma endPlace_bounds (length : Nat) (step : Int) (upper : Option Int) :
    (0 ≤ step → endPlace length step upper ≤ length) ∧
      (step < 0 → -1 ≤ endPlace length step upper) := by
  cases upper <;> simp only [endPlace, adjusted] <;> grind

/-- All places of a slice lie in the sequence. -/
theorem place_bounds {length : Nat} {lower upper : Option Int} {step p : Int}
    (hp : p ∈ progression (firstPlace length step lower) (endPlace length step upper) step) :
    0 ≤ p ∧ p < length := by
  have hfirst := firstPlace_bounds length step lower
  have hend := endPlace_bounds length step upper
  have hbetween := mem_progression hp
  omega

lemma mapM_at {α : Type} (items : List α) (places : List Int)
    (h : ∀ p ∈ places, 0 ≤ p ∧ p < items.length) :
    places.mapM (at? items) = some ((places.map Int.toNat).filterMap (items[·]?)) := by
  induction places with
  | nil => rfl
  | cons p rest ih =>
    obtain ⟨hp, hlt⟩ := h p List.mem_cons_self
    have hrest := ih fun q hq => h q (List.mem_cons_of_mem p hq)
    obtain ⟨a, hget⟩ : ∃ a, items[p.toNat]? = some a :=
      ⟨_, List.getElem?_eq_getElem (by omega)⟩
    simp [List.mapM_cons, at?, hp, hget, hrest]

/-- The elements that are selected are those on the walk. -/
theorem sliced_eq_select {α : Type} (items : List α) (b : Bounds) (hs : b.step.getD 1 ≠ 0) :
    sliced items b.lower b.upper (b.step.getD 1) = some (b.select items) := by
  unfold sliced
  rw [mapM_at _ _ fun p hp => place_bounds hp, progression_eq hs]
  simp [Bounds.select, Bounds.places, resolve_eq, Function.comp_def]

/-- A slice of a value is what the evaluator gives, and an error is one there. -/
theorem slice_eq (v : Value) (b : Bounds) :
    slice v b.lower b.upper b.step = (v.slice b).toOption := by
  have hstep : b.step.getD 1 = 0 ↔ b.step = some 0 := by
    cases b.step <;> simp
  by_cases hs : b.step = some 0
  · cases v <;> simp [slice, Value.slice, hs, Except.toOption]
  · have hne : b.step.getD 1 ≠ 0 := fun h => hs (hstep.mp h)
    cases v <;> simp [slice, Value.slice, hs, hne, sliced_eq_select, Except.toOption]

lemma element_eq {α : Type} (items : List α) (n : Int) :
    element? items n = Value.element? items n := by
  unfold element? at? Value.element? place?
  generalize (if n < 0 then n + (items.length : Int) else n) = p
  by_cases h : 0 ≤ p
  · by_cases hlt : p < items.length
    · simp [h, hlt]
    · simp [h, hlt]
  · simp [h]

/-- An element of a value is what the evaluator gives, and an error is one there. -/
theorem item_eq {v key : Value} {n : Int} (h : key.asInt? = some n) (hn : number? key = some n) :
    item v key = (v.index key).toOption := by
  cases v with
  | str s =>
    cases he : Value.element? s.toList n <;>
      simp [item, Value.index, h, hn, element_eq, he, Except.toOption]
  | bytes b =>
    cases he : Value.element? b n <;>
      simp [item, Value.index, h, hn, element_eq, he, Except.toOption]
  | list items =>
    cases he : Value.element? items n <;>
      simp [item, Value.index, h, hn, element_eq, he, Except.toOption]
  | _ => simp [item, Value.index, h, hn, Except.toOption]

end Unmask.Evaluation
