import Unmask.Proofs.Slicing

/-!
# Slices in machine words

A slice is found by a loop over words of 64 bits: the bounds and the step are moved into a word
first, what is added to a negative bound stops at the ends of the words, and the loop stops where
the next position is in no word. On sequences whose length is a word nothing of this shows: the
loop stops at the positions of the slice, which are computed without words, and each of them is in
the sequence.
-/
namespace Unmask

/-- The elements of a sequence, each as the value that its index gives. -/
def Value.elements : Value → List Value
  | .str s => s.toList.map fun c => .str (String.singleton c)
  | .bytes o => o.map fun octet => .int octet.toNat
  | .list items => items
  | _ => []

namespace Words
open Evaluation

/-- The least word. -/
def least : Int := -2 ^ 63

/-- The greatest word. -/
def greatest : Int := 2 ^ 63 - 1

/-- The word next to a number. -/
def saturated (n : Int) : Int :=
  if n < least then least else if greatest < n then greatest else n

/-- The sum of two words, if it is one. -/
def sum? (a b : Int) : Option Int :=
  if least ≤ a + b ∧ a + b ≤ greatest then some (a + b) else none

lemma sum?_eq_some {a b c : Int} (h : sum? a b = some c) : c = a + b := by
  unfold sum? at h
  split at h
  · exact (Option.some.inj h).symm
  · contradiction

/-- Whether a position is before the end of a walk in steps. -/
def Before (step stop position : Int) : Prop :=
  0 < step ∧ position < stop ∨ step < 0 ∧ stop < position

instance (step stop position : Int) : Decidable (Before step stop position) :=
  inferInstanceAs (Decidable (_ ∨ _))

/-- The positions from one on, in steps, up to the end. -/
def walk (step stop position : Int) : List Nat :=
  if Before step stop position then
    let rest := match _hsum : sum? position step with
      | some next => walk step stop next
      | none => []
    if 0 ≤ position then position.toNat :: rest else rest
  else []
termination_by (if 0 < step then stop - position else position - stop).toNat
decreasing_by
  have hnext := sum?_eq_some _hsum
  unfold Before at *
  split <;> omega

/-- The least place where a slice may start or stop. -/
def low (step : Int) : Int := if step < 0 then -1 else 0

/-- The greatest place where a slice may start or stop. -/
def high (length step : Int) : Int := if step < 0 then length - 1 else length

/-- A bound moved into the sequence. -/
def moved (length step bound : Int) : Int :=
  let word := saturated bound
  if word < 0 then max (saturated (word + length)) (low step) else min word (high length step)

/-- Where the loop starts. -/
def start (length step : Int) (lower : Option Int) : Int :=
  (lower.map (moved length step)).getD (if step < 0 then high length step else low step)

/-- Where the loop stops. -/
def stop (length step : Int) (upper : Option Int) : Int :=
  (upper.map (moved length step)).getD (if step < 0 then low step else high length step)

/-- The positions that a slice selects. -/
def places (b : Value.Bounds) (length : Nat) : Except EvalError (List Nat) :=
  let step := (b.step.map saturated).getD 1
  let length := min (length : Int) greatest
  if step = 0 then .error (.invalid .zeroStep)
  else .ok (walk step (stop length step b.upper) (start length step b.lower))

/-- A slice of a sequence. -/
def slice (v : Value) (b : Value.Bounds) : Except EvalError Value :=
  match v with
  | .str s => (places b s.toList.length).map fun ps =>
      .str (String.ofList (ps.filterMap (s.toList[·]?)))
  | .bytes o => (places b o.length).map fun ps => .bytes (ps.filterMap (o[·]?))
  | .list items => (places b items.length).map fun ps => .list (ps.filterMap (items[·]?))
  | v => .error (.unsupportedOperands .slice v.kind .slice)

lemma saturated_neg_iff {n : Int} : saturated n < 0 ↔ n < 0 := by
  unfold saturated least greatest
  split <;> [skip; split] <;> omega

lemma saturated_eq_zero_iff {n : Int} : saturated n = 0 ↔ n = 0 := by
  unfold saturated least greatest
  split <;> [skip; split] <;> omega

lemma step_eq (b : Value.Bounds) : (b.step.map saturated).getD 1 = saturated (b.step.getD 1) := by
  cases b.step <;> rfl

lemma low_saturated (step : Int) : low (saturated step) = low step := by
  simp only [low, saturated_neg_iff]

lemma high_saturated (length step : Int) : high length (saturated step) = high length step := by
  simp only [high, saturated_neg_iff]

section
variable {length : Nat} (hlen : (length : Int) ≤ greatest) (step : Int)

include hlen in
/-- A bound is moved to the same place as without words. -/
lemma moved_eq (bound : Int) :
    moved length (saturated step) bound = adjusted length step bound := by
  simp only [moved, low_saturated, high_saturated, saturated_neg_iff]
  unfold adjusted saturated low high least greatest at *
  split_ifs <;> omega

include hlen in
lemma start_eq (lower : Option Int) :
    start length (saturated step) lower = firstPlace length step lower := by
  cases lower with
  | none =>
    simp only [start, firstPlace, saturated_neg_iff, low_saturated, high_saturated, Option.map_none,
      Option.getD_none]
    unfold low high
    split_ifs <;> rfl
  | some bound => exact moved_eq hlen step bound

include hlen in
lemma stop_eq (upper : Option Int) :
    stop length (saturated step) upper = endPlace length step upper := by
  cases upper with
  | none =>
    simp only [stop, endPlace, saturated_neg_iff, low_saturated, high_saturated, Option.map_none,
      Option.getD_none]
    unfold low high
    split_ifs <;> rfl
  | some bound => exact moved_eq hlen step bound

end

lemma walk_stopped {step stop position : Int} (h : ¬Before step stop position) :
    walk step stop position = [] := by
  rw [walk, if_neg h]

lemma progression_stopped {step stop position : Int} (h : ¬Before step stop position) :
    progression position stop step = [] := by
  rw [progression]
  exact if_neg h

section
variable {length : Nat} (hlen : (length : Int) ≤ greatest) {step stop position : Int}
  (hstop : (0 ≤ step → stop ≤ length) ∧ (step < 0 → -1 ≤ stop))

include hlen hstop in
/-- Behind a position in the sequence, the next one is the same with words and without, or the walk
is over with both. -/
lemma next_cases (hposition : 0 ≤ position ∧ position < length) :
    saturated step = step ∧ sum? position step = some (position + step) ∨
      ¬Before step stop (position + step) ∧
        ∀ next, sum? position (saturated step) = some next →
          ¬Before (saturated step) stop next := by
  by_cases hword : least ≤ step ∧ step ≤ greatest
  · have hstep : saturated step = step := by
      unfold saturated
      rw [if_neg (not_lt.mpr hword.1), if_neg (not_lt.mpr hword.2)]
    by_cases hsum : least ≤ position + step ∧ position + step ≤ greatest
    · exact .inl ⟨hstep, if_pos hsum⟩
    · refine .inr ⟨?_, fun next h => ?_⟩
      · unfold Before least greatest at *
        omega
      · rw [hstep, sum?, if_neg hsum] at h
        contradiction
  · refine .inr ⟨?_, fun next h => ?_⟩
    · unfold Before least greatest at *
      omega
    · have hnext := sum?_eq_some h
      unfold saturated Before least greatest at *
      split_ifs at hnext ⊢ <;> omega

include hlen hstop in
/-- The loop over words goes through the positions that are computed without words. -/
theorem walk_eq (hstart : (0 ≤ step → 0 ≤ position) ∧ (step < 0 → position < length)) :
    walk (saturated step) stop position = (progression position stop step).map Int.toNat := by
  fun_induction progression position stop step with
  | case1 position h ih =>
    have hposition : 0 ≤ position ∧ position < length := by omega
    have hrest := ih (by omega)
    have hbefore : Before (saturated step) stop position := by
      unfold Before saturated least greatest
      split_ifs <;> omega
    rw [walk, if_pos hbefore, List.map_cons, ← hrest]
    simp only [hposition.1, if_true]
    congr 1
    obtain ⟨hstep, hnext⟩ | ⟨hover, hwords⟩ := next_cases hlen hstop hposition
    · rw [hstep, hnext]
    · rw [hrest, progression_stopped hover]
      split
      · next hsum => exact walk_stopped (hwords _ hsum)
      · rfl
  | case2 position h =>
    have hover : ¬Before (saturated step) stop position := by
      unfold Before saturated least greatest
      split_ifs <;> omega
    rw [walk_stopped hover, List.map_nil]

end

lemma places_progression (b : Value.Bounds) (length : Nat) (hs : b.step.getD 1 ≠ 0) :
    b.places length = (progression (firstPlace length (b.step.getD 1) b.lower)
      (endPlace length (b.step.getD 1) b.upper) (b.step.getD 1)).map Int.toNat := by
  rw [progression_eq hs, Value.Bounds.places, resolve_eq, List.map_map]
  rfl

lemma step_eq_zero_iff (b : Value.Bounds) : b.step.getD 1 = 0 ↔ b.step = some 0 := by
  cases b.step <;> simp

/-- On a sequence whose length is a word, the loop finds the places of the slice. -/
theorem places_eq {length : Nat} (hlen : (length : Int) ≤ greatest) (b : Value.Bounds) :
    places b length =
      if b.step = some 0 then .error (.invalid .zeroStep) else .ok (b.places length) := by
  simp only [places, step_eq, saturated_eq_zero_iff, step_eq_zero_iff, min_eq_left hlen,
    start_eq hlen, stop_eq hlen]
  split
  · rfl
  · next hs =>
    rw [places_progression b length ((step_eq_zero_iff b).not.mpr hs),
      walk_eq hlen (endPlace_bounds length _ b.upper) (firstPlace_bounds length _ b.lower)]

/-- On sequences whose lengths are words, slices over words are slices. -/
theorem slice_eq_slice {v : Value} (hlen : (v.elements.length : Int) ≤ greatest)
    (b : Value.Bounds) : slice v b = v.slice b := by
  cases v with
  | str s =>
    rw [Value.elements, List.length_map] at hlen
    simp only [slice, Value.slice, Value.Bounds.select, places_eq hlen, List.getElem?_toArray]
    split <;> rfl
  | bytes o =>
    rw [Value.elements, List.length_map] at hlen
    simp only [slice, Value.slice, Value.Bounds.select, places_eq hlen, List.getElem?_toArray]
    split <;> rfl
  | list items =>
    rw [Value.elements] at hlen
    simp only [slice, Value.slice, Value.Bounds.select, places_eq hlen, List.getElem?_toArray]
    split <;> rfl
  | _ => rfl

end Words

namespace Value
open Evaluation Words

/-- The position that a slice comes to in so many steps. -/
def Bounds.position (b : Bounds) (length steps : Nat) : Int :=
  firstPlace length (b.step.getD 1) b.lower + b.step.getD 1 * steps

/-- Whether that position is still before the stop. -/
def Bounds.Selects (b : Bounds) (length steps : Nat) : Prop :=
  Before (b.step.getD 1) (endPlace length (b.step.getD 1) b.upper) (b.position length steps)

instance (b : Bounds) (length steps : Nat) : Decidable (b.Selects length steps) :=
  inferInstanceAs (Decidable (Before _ _ _))

/-- A walk that is over stays so. -/
lemma not_before_later {step stop position : Int} (h : ¬Before step stop position) (steps : Nat) :
    ¬Before step stop (position + step * steps) := by
  rintro (⟨hpos, hlt⟩ | ⟨hneg, hlt⟩)
  · have hfar : 0 ≤ step * steps := mul_nonneg hpos.le (Int.natCast_nonneg steps)
    exact h (.inl ⟨hpos, by omega⟩)
  · have hfar : step * steps ≤ 0 :=
      mul_nonpos_of_nonpos_of_nonneg hneg.le (Int.natCast_nonneg steps)
    exact h (.inr ⟨hneg, by omega⟩)

lemma getElem?_progression (start stop step : Int) (i : Nat) :
    (progression start stop step)[i]? =
      if Before step stop (start + step * i) then some (start + step * i) else Option.none := by
  fun_induction progression start stop step generalizing i with
  | case1 start h ih =>
    cases i with
    | zero =>
      have hstart : start + step * (0 : Nat) = start := by simp
      rw [hstart, List.getElem?_cons_zero]
      exact (if_pos h).symm
    | succ i =>
      have hnext : start + step * (i + 1 : Nat) = start + step + step * i := by
        push_cast
        ring
      rw [List.getElem?_cons_succ, ih, hnext]
  | case2 start h => rw [if_neg (not_before_later h i), List.getElem?_nil]

lemma getElem?_positions (b : Bounds) (length i : Nat) :
    (progression (firstPlace length (b.step.getD 1) b.lower)
      (endPlace length (b.step.getD 1) b.upper) (b.step.getD 1))[i]? =
        if b.Selects length i then some (b.position length i) else Option.none :=
  getElem?_progression _ _ _ i

lemma getElem?_filterMap {α : Type} (items : List α) {places : List Nat}
    (h : ∀ p ∈ places, p < items.length) (i : Nat) :
    (places.filterMap (items[·]?))[i]? = places[i]?.bind (items[·]?) := by
  induction places generalizing i with
  | nil => rfl
  | cons p rest ih =>
    obtain ⟨a, hp⟩ : ∃ a, items[p]? = some a :=
      ⟨_, List.getElem?_eq_getElem (h p List.mem_cons_self)⟩
    rw [List.filterMap_cons_some hp]
    cases i with
    | zero => exact hp.symm
    | succ i => exact ih (fun q hq => h q (List.mem_cons_of_mem p hq)) i

/-- A slice has the elements at its positions. -/
theorem getElem?_select {α : Type} (items : List α) {b : Bounds} (hs : b.step ≠ some 0) (i : Nat) :
    (b.select items)[i]? = if b.Selects items.length i then
      items[(b.position items.length i).toNat]? else Option.none := by
  have hplaces := places_progression b items.length ((step_eq_zero_iff b).not.mpr hs)
  have hvalid : ∀ p ∈ b.places items.length, p < items.length := by
    intro p hp
    rw [hplaces] at hp
    obtain ⟨q, hq, rfl⟩ := List.mem_map.mp hp
    have hbounds := place_bounds hq
    omega
  simp only [Bounds.select, List.getElem?_toArray]
  rw [getElem?_filterMap items hvalid, hplaces, List.getElem?_map, getElem?_positions]
  split <;> rfl

/-- A selected position is one of the sequence. -/
lemma position_bounds {b : Bounds} {length i : Nat} (h : b.Selects length i) :
    0 ≤ b.position length i ∧ b.position length i < length := by
  have hget := getElem?_positions b length i
  rw [if_pos h] at hget
  exact place_bounds (List.mem_of_getElem? hget)

/-- A slice fails on a step of zero only. It has the elements at the positions from the start on, in
steps, that lie before the stop; they are all in the sequence; and a loop over words, into which
bounds and step are moved, finds the same ones if the length is a word. -/
theorem slice_exact {v : Value} (b : Bounds) (hv : v.isSequence = true)
    (hlen : v.elements.length < 2 ^ 63) :
    (b.step = some 0 → v.slice b = .error (.invalid .zeroStep)) ∧
    (b.step ≠ some 0 → ∃ r, v.slice b = .ok r ∧ r.kind = v.kind ∧ ∀ i : Nat,
      r.elements[i]? = (if b.Selects v.elements.length i then
        v.elements[(b.position v.elements.length i).toNat]? else Option.none) ∧
      (b.Selects v.elements.length i →
        0 ≤ b.position v.elements.length i ∧
          b.position v.elements.length i < v.elements.length)) ∧
    Words.slice v b = v.slice b := by
  refine ⟨fun hs => ?_, fun hs => ?_, slice_eq_slice (by unfold greatest; omega) b⟩
  · cases v with
    | str | bytes | list => simp [slice, hs]
    | _ => cases hv
  · cases v with
    | str s =>
      refine ⟨.str (String.ofList (b.select s.toList)), by simp [slice, hs], rfl, fun i => ?_⟩
      refine ⟨?_, position_bounds⟩
      simp only [elements, String.toList_ofList, List.length_map, List.getElem?_map,
        getElem?_select _ hs]
      split <;> rfl
    | bytes o =>
      refine ⟨.bytes (b.select o), by simp [slice, hs], rfl, fun i => ⟨?_, position_bounds⟩⟩
      simp only [elements, List.length_map, List.getElem?_map, getElem?_select _ hs]
      split <;> rfl
    | list items =>
      refine ⟨.list (b.select items), by simp [slice, hs], rfl, fun i => ⟨?_, position_bounds⟩⟩
      exact getElem?_select items hs i
    | _ => cases hv

/-- Two steps back from the end of a text, with a bound that no word holds. -/
theorem slice_exact_backwards :
    (Value.str "hello").isSequence = true ∧ (Value.str "hello").elements.length < 2 ^ 63 ∧
    (⟨some (-1), some (-2 ^ 70), some (-2)⟩ : Bounds).step ≠ some 0 ∧
    (∃ r, (Value.str "hello").slice ⟨some (-1), some (-2 ^ 70), some (-2)⟩ = .ok r ∧
      r.elements[1]? = some (.str "l")) ∧
    Words.slice (.str "hello") ⟨some (-1), some (-2 ^ 70), some (-2)⟩ =
      (Value.str "hello").slice ⟨some (-1), some (-2 ^ 70), some (-2)⟩ := by
  have hexact := slice_exact (v := .str "hello") ⟨some (-1), some (-2 ^ 70), some (-2)⟩ rfl
    (by decide)
  have hstep : (⟨some (-1), some (-2 ^ 70), some (-2)⟩ : Bounds).step ≠ some 0 := by decide
  refine ⟨rfl, by decide, hstep, ?_, hexact.2.2⟩
  obtain ⟨r, hr, -, hplace⟩ := hexact.2.1 hstep
  exact ⟨r, hr, (hplace 1).1⟩

end Value
end Unmask
