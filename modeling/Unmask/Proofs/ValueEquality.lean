import Mathlib.Tactic.Lemma
import Unmask.Mock.Call
import Unmask.Value.Compare

/-!
# Equality of values

Numbers are equal when they are the same number, so that the truth values are equal to one and
zero; lists are equal when their elements are, place by place. A comparison of two values finds the
first, but it takes the elements of lists as equal only when their kinds are the same, and so does
the search for an element. The two notions differ where a truth value stands against an integer.
-/
namespace Unmask.Value

variable {a b v w : Value} {items others : List Value}

/-- The values without floats. -/
inductive FloatFree : Value → Prop where
  | none : FloatFree .none
  | bool (p : Bool) : FloatFree (.bool p)
  | int (n : Int) : FloatFree (.int n)
  | str (s : String) : FloatFree (.str s)
  | bytes (o : Bytes) : FloatFree (.bytes o)
  | list {items : List Value} (h : ∀ v ∈ items, FloatFree v) : FloatFree (.list items)

/-- Equality of values without floats. -/
inductive Equals : Value → Value → Prop where
  | none : Equals .none .none
  | number {v w : Value} {n : Int} (hv : v.asInt? = some n) (hw : w.asInt? = some n) : Equals v w
  | str (s : String) : Equals (.str s) (.str s)
  | bytes (o : Bytes) : Equals (.bytes o) (.bytes o)
  | list {items others : List Value} (hlen : items.length = others.length)
    (h : ∀ (i : Nat) (v w : Value), items[i]? = some v → others[i]? = some w → Equals v w) :
    Equals (.list items) (.list others)

/-- Whether somewhere a truth value stands against an integer. -/
inductive Clash : Value → Value → Prop where
  | truth (p : Bool) (n : Int) : Clash (.bool p) (.int n)
  | integer (n : Int) (p : Bool) : Clash (.int n) (.bool p)
  | inner {items others : List Value} {i : Nat} {v w : Value} (hv : items[i]? = some v)
    (hw : others[i]? = some w) (h : Clash v w) : Clash (.list items) (.list others)

lemma FloatFree.of_mem (h : (Value.list items).FloatFree) (hv : v ∈ items) : v.FloatFree := by
  cases h with
  | list h => exact h v hv

lemma FloatFree.ints (ns : List Int) : (Value.list (ns.map Value.int)).FloatFree := by
  refine .list fun v hv => ?_
  obtain ⟨n, -, rfl⟩ := List.mem_map.mp hv
  exact .int n

lemma sameList_iff (h : ∀ v ∈ items, ∀ w, v.same w = true ↔ v = w) (others : List Value) :
    sameList items others = true ↔ items = others := by
  induction items generalizing others with
  | nil => cases others <;> simp [sameList]
  | cons v items ih =>
    cases others with
    | nil => simp [sameList]
    | cons w others =>
      have hrest := ih (fun u hu => h u (List.mem_cons_of_mem v hu)) others
      simp [sameList, h v List.mem_cons_self, hrest]

/-- Without floats, kind and contents are all that there is to a value. -/
lemma FloatFree.same_iff (ha : a.FloatFree) (b : Value) : a.same b = true ↔ a = b := by
  induction ha generalizing b with
  | list h ih => cases b <;> simp [same, sameList_iff ih]
  | _ => cases b <;> simp [same]

lemma FloatFree.refl (ha : a.FloatFree) : Equals a a := by
  induction ha with
  | none => exact .none
  | bool p => exact .number (n := if p then 1 else 0) rfl rfl
  | int n => exact .number (n := n) rfl rfl
  | str s => exact .str s
  | bytes o => exact .bytes o
  | list h ih =>
    refine .list rfl fun i v w hv hw => ?_
    cases hv.symm.trans hw
    exact ih v (List.mem_of_getElem? hv)

lemma Clash.ne (h : Clash a b) : a ≠ b := by
  induction h with
  | truth | integer => exact nofun
  | inner hv hw _ ih =>
    rintro hlists
    cases hlists
    exact ih (Option.some.inj (hv.symm.trans hw))

/-- Numbers of one kind are equal only if they are the same. -/
lemma eq_of_asInt? {n : Int} (hv : v.asInt? = some n) (hw : w.asInt? = some n)
    (h : ¬Clash v w) : v = w := by
  cases v with
  | bool p =>
    cases w with
    | bool q => cases p <;> cases q <;> cases hv <;> cases hw <;> rfl
    | int m => exact absurd (.truth p m) h
    | _ => cases hw
  | int m =>
    cases w with
    | bool q => exact absurd (.integer m q) h
    | int k =>
      cases hv
      cases hw
      rfl
    | _ => cases hw
  | _ => cases hv

/-- Values that are equal are the same, unless a truth value stands against an integer. -/
lemma Equals.eq_iff (h : Equals a b) : a = b ↔ ¬Clash a b := by
  refine ⟨fun heq hclash => hclash.ne heq, fun hclash => ?_⟩
  induction h with
  | none | str | bytes => rfl
  | number hv hw => exact eq_of_asInt? hv hw hclash
  | list hlen h ih =>
    congr 1
    refine List.ext_getElem hlen fun i hi hi' => ?_
    have hv := List.getElem?_eq_getElem hi
    have hw := List.getElem?_eq_getElem hi'
    exact ih i _ _ hv hw fun hinner => hclash (.inner hv hw hinner)

lemma orderRows_isEq (r s : List Nat) : (orderRows r s).isEq = true ↔ r = s := by
  fun_induction orderRows r s with
  | case1 | case2 | case3 => simp
  | case4 x r y s h => simp [Nat.ne_of_lt h]
  | case5 x r y s _ h => simp [Nat.ne_of_gt h]
  | case6 x r y s h h' ih =>
    have hxy : x = y := by omega
    simp [hxy, ih]

lemma FloatFree.number?_eq (ha : a.FloatFree) : a.number? = a.asInt?.map Number.int := by
  cases ha <;> rfl

lemma map_toNat_inj {s t : String} :
    s.toList.map Char.toNat = t.toList.map Char.toNat ↔ s = t := by
  rw [List.map_inj_right fun _ _ => Char.toNat_inj.mp, String.toList_inj]

lemma map_octets_inj {s t : Bytes} : s.map UInt8.toNat = t.map UInt8.toNat ↔ s = t :=
  List.map_inj_right fun _ _ => UInt8.toNat_inj.mp

/-- What an order of two values tells about their equality: where there is none, only lists can be
equal without being the same. -/
inductive Compared (a b : Value) : Option Ordering → Prop where
  | ordered (o : Ordering) (hlist : a.kind ≠ .list) (h : o.isEq = true ↔ Equals a b) :
    Compared a b (some o)
  | unordered (h : a.kind ≠ .list → (a = b ↔ Equals a b)) : Compared a b Option.none

/-- Truth values and integers are ordered by their numbers. -/
lemma compared_number {m n : Int} (hm : a.asInt? = some m) (hn : b.asInt? = some n) :
    Compared a b (some (if m < n then .lt else if m = n then .eq else .gt)) := by
  refine .ordered _ ?_ ⟨fun h => ?_, fun h => ?_⟩
  · rintro hlist
    cases a <;> cases hlist
    cases hm
  · have hmn : m = n := by
      split at h
      · cases h
      · split at h
        · assumption
        · cases h
    exact .number hm (hmn ▸ hn)
  · have hmn : m = n := by
      cases h with
      | number hv hw =>
        cases hm.symm.trans hv
        exact Option.some.inj (hw.symm.trans hn)
      | _ => cases hm
    simp [hmn]

/-- Two values that are not both numbers are equal only if they are the same, lists aside. -/
lemma compared_apart (ha : a.FloatFree)
    (hnumber : a.asInt? = Option.none ∨ b.asInt? = Option.none) : Compared a b Option.none := by
  refine .unordered fun hlist => ⟨fun h => h ▸ ha.refl, fun h => ?_⟩
  cases h with
  | none | str | bytes => rfl
  | number hv hw => simp [hv, hw] at hnumber
  | list => exact absurd rfl hlist

lemma order?_number {m n : Int} (ha : a.FloatFree) (hb : b.FloatFree) (hm : a.asInt? = some m)
    (hn : b.asInt? = some n) (op : CompareOp) :
    order? op a b = .ok (some (if m < n then .lt else if m = n then .eq else .gt)) := by
  simp only [order?, ha.number?_eq, hb.number?_eq, hm, hn, Option.map_some]

/-- Values without floats are compared without an error, in the same way by all comparisons. -/
lemma order?_compared (ha : a.FloatFree) (hb : b.FloatFree) :
    ∃ order, (∀ op, order? op a b = .ok order) ∧ Compared a b order := by
  have number {m n : Int} (hm : a.asInt? = some m) (hn : b.asInt? = some n) :
      ∃ order, (∀ op, order? op a b = .ok order) ∧ Compared a b order :=
    ⟨_, order?_number ha hb hm hn, compared_number hm hn⟩
  cases ha with
  | none => exact ⟨_, fun _ => rfl, compared_apart .none (.inl rfl)⟩
  | bool p =>
    cases hb with
    | bool | int => exact number rfl rfl
    | _ => exact ⟨_, fun _ => rfl, compared_apart (.bool p) (.inr rfl)⟩
  | int n =>
    cases hb with
    | bool | int => exact number rfl rfl
    | _ => exact ⟨_, fun _ => rfl, compared_apart (.int n) (.inr rfl)⟩
  | str s =>
    cases hb with
    | str t =>
      refine ⟨_, fun _ => rfl, .ordered _ nofun ?_⟩
      rw [orderRows_isEq, map_toNat_inj]
      exact ⟨fun h => h ▸ .str s, fun h => by cases h with | str => rfl | number hv => cases hv⟩
    | _ => exact ⟨_, fun _ => rfl, compared_apart (.str s) (.inl rfl)⟩
  | bytes o =>
    cases hb with
    | bytes p =>
      refine ⟨_, fun _ => rfl, .ordered _ nofun ?_⟩
      rw [orderRows_isEq, map_octets_inj]
      exact ⟨fun h => h ▸ .bytes o, fun h => by cases h with | bytes => rfl | number hv => cases hv⟩
    | _ => exact ⟨_, fun _ => rfl, compared_apart (.bytes o) (.inl rfl)⟩
  | list h => exact ⟨_, fun _ => rfl, compared_apart (.list h) (.inl rfl)⟩

/-- Two values without floats compare as equal just when they are equal, save that lists have to be
the same. -/
lemma compare_iff (ha : a.FloatFree) (hb : b.FloatFree) :
    ∃ t, a.compare .eq b = .ok t ∧ a.compare .notEq b = .ok (!t) ∧
      (t = true ↔ Equals a b ∧ (a.kind = .list → ¬Clash a b)) := by
  obtain ⟨order, horder, hcompared⟩ := order?_compared ha hb
  refine ⟨(order.map Ordering.isEq).getD (a.same b), ?_, ?_, ?_⟩
  · simp [compare, horder, bind, Except.bind, pure, Except.pure]
  · simp [compare, horder, bind, Except.bind, pure, Except.pure]
  · cases hcompared with
    | ordered o hlist h => simpa [hlist] using h
    | unordered h =>
      rw [Option.map_none, Option.getD_none, ha.same_iff]
      by_cases hlist : a.kind = .list
      · refine ⟨fun heq => ⟨heq ▸ ha.refl, fun _ hclash => hclash.ne heq⟩, fun hequals => ?_⟩
        exact hequals.1.eq_iff.mpr (hequals.2 hlist)
      · simp [hlist, h hlist]

/-- The first place from `start` on whose element has a property. -/
def FirstFrom (holds : Value → Prop) (items : List Value) (start p : Nat) : Prop :=
  start ≤ p ∧ (∃ v, items[p]? = some v ∧ holds v) ∧
    ∀ (q : Nat) (v : Value), start ≤ q → q < p → items[q]? = some v → ¬holds v

section
variable {holds : Value → Prop} {start p q : Nat}

lemma FirstFrom.unique (hp : FirstFrom holds items start p) (hq : FirstFrom holds items start q) :
    p = q := by
  obtain ⟨hpstart, ⟨v, hv, hpholds⟩, hpbefore⟩ := hp
  obtain ⟨hqstart, ⟨w, hw, hqholds⟩, hqbefore⟩ := hq
  obtain hlt | heq | hlt := Nat.lt_trichotomy p q
  · exact absurd hpholds (hqbefore p v hpstart hlt hv)
  · exact heq
  · exact absurd hqholds (hpbefore q w hqstart hlt hw)

/-- Up to an element with the property there is a first one. -/
lemma exists_firstFrom (hq : start ≤ q) (hv : items[q]? = some v) (h : holds v) :
    ∃ p ≤ q, FirstFrom holds items start p := by
  induction q using Nat.strongRecOn generalizing v with
  | ind q ih =>
    by_cases hearlier : ∃ (r : Nat) (w : Value),
        start ≤ r ∧ r < q ∧ items[r]? = some w ∧ holds w
    · obtain ⟨r, w, hr, hrq, hw, hholds⟩ := hearlier
      obtain ⟨p, hp, hfirst⟩ := ih r hrq hr hw hholds
      exact ⟨p, by omega, hfirst⟩
    · refine ⟨q, Nat.le_refl q, hq, ⟨v, hv, h⟩, fun r w hr hrq hw hholds => ?_⟩
      exact hearlier ⟨r, w, hr, hrq, hw, hholds⟩

end

/-- A search finds the first value that it looks for. -/
lemma findIdx?_iff {p : Value → Bool} {holds : Value → Prop}
    (h : ∀ v ∈ items, p v = true ↔ holds v) (k : Nat) :
    items.findIdx? p = some k ↔ FirstFrom holds items 0 k := by
  rw [List.findIdx?_eq_some_iff_getElem]
  constructor
  · rintro ⟨hk, hfound, hbefore⟩
    refine ⟨k.zero_le, ⟨_, List.getElem?_eq_getElem hk, ?_⟩, fun q v _ hq hv hholds => ?_⟩
    · exact (h _ (List.getElem_mem hk)).mp hfound
    · obtain ⟨hlt, rfl⟩ := List.getElem?_eq_some_iff.mp hv
      exact hbefore q hq ((h _ (List.getElem_mem hlt)).mpr hholds)
  · rintro ⟨-, ⟨v, hv, hholds⟩, hbefore⟩
    obtain ⟨hlt, rfl⟩ := List.getElem?_eq_some_iff.mp hv
    refine ⟨hlt, (h _ (List.getElem_mem hlt)).mpr hholds, fun q hq hfound => ?_⟩
    have hqlt := Nat.lt_trans hq hlt
    exact hbefore q _ q.zero_le hq (List.getElem?_eq_getElem hqlt)
      ((h _ (List.getElem_mem hqlt)).mp hfound)

/-- Among values without floats, the search finds the first one that is the needle itself. -/
lemma findIdx?_same_iff (hitems : (list items).FloatFree) (needle : Value) (p : Nat) :
    items.findIdx? (Value.same · needle) = some p ↔ FirstFrom (· = needle) items 0 p :=
  findIdx?_iff (fun _ hv => (hitems.of_mem hv).same_iff needle) p

/-- What `index` of a list gives for a value. -/
def located (items : List Value) (needle : Value) : Except MockError (Option Mock) :=
  Mock.call (.method (.list items) .index) ⟨[.value needle.kind.name needle], []⟩

/-- A search ends at a place or fails for want of one. -/
lemma located_cases (items : List Value) (needle : Value) :
    (∃ p : Nat, items.findIdx? (Value.same · needle) = some p ∧
      located items needle = .ok (some (.value Kind.int.name (.int p)))) ∨
    items.findIdx? (Value.same · needle) = Option.none ∧
      located items needle = .error (.evaluation (.invalid (.notInList needle.repr))) := by
  cases h : items.findIdx? (Value.same · needle) with
  | none =>
    refine .inr ⟨rfl, ?_⟩
    simp [located, Mock.call, Method.call, Method.callIndex, Arguments.firstValue?, Mock.value?, h,
      bind, Except.bind, Except.map]
  | some p =>
    refine .inl ⟨p, rfl, ?_⟩
    simp [located, Mock.call, Method.call, Method.callIndex, Arguments.firstValue?, Mock.value?, h,
      bind, Except.bind, Except.map, Mock.ofValue, kind]

lemma compare_sound (ha : a.FloatFree) (hb : b.FloatFree) (h : a.compare .eq b = .ok true) :
    Equals a b ∧ (a.kind = .list → ¬Clash a b) := by
  obtain ⟨t, ht, -, hiff⟩ := compare_iff ha hb
  cases h.symm.trans ht
  exact hiff.mp rfl

lemma compare_of_eq (ha : a.FloatFree) (h : b = a) : b.compare .eq a = .ok true := by
  subst h
  obtain ⟨t, ht, -, hiff⟩ := compare_iff ha ha
  rw [ht, hiff.mpr ⟨ha.refl, fun _ hclash => hclash.ne rfl⟩]

/-- The first place of an element that compares as equal to the needle. -/
def FirstEqual (items : List Value) (needle : Value) (p : Nat) : Prop :=
  FirstFrom (fun v => v.compare .eq needle = .ok true) items 0 p

/-- The search finds what comparison finds, and fails where comparison finds nothing. -/
def SearchCompares (items : List Value) (needle : Value) : Prop :=
  (∀ p : Nat, located items needle = .ok (some (.value Kind.int.name (.int p))) ↔
    FirstEqual items needle p) ∧
  ((∃ e, located items needle = .error e) ↔ ∀ p, ¬FirstEqual items needle p)

lemma located_eq_ok_iff (hitems : (list items).FloatFree) (needle : Value) (p : Nat) :
    located items needle = .ok (some (.value Kind.int.name (.int p))) ↔
      FirstFrom (· = needle) items 0 p := by
  rw [← findIdx?_same_iff hitems]
  obtain ⟨q, hq, hlocated⟩ | ⟨hnone, hlocated⟩ := located_cases items needle
  · simp only [hq, hlocated, Except.ok.injEq, Option.some.injEq, Mock.value.injEq, true_and,
      Value.int.injEq, Int.natCast_inj]
  · simp [hnone, hlocated]

lemma located_eq_error_iff (hitems : (list items).FloatFree) (needle : Value) :
    (∃ e, located items needle = .error e) ↔ ∀ p, ¬FirstFrom (· = needle) items 0 p := by
  simp only [← findIdx?_same_iff hitems]
  obtain ⟨q, hq, hlocated⟩ | ⟨hnone, hlocated⟩ := located_cases items needle
  · simp [hq, hlocated]
  · simp [hnone, hlocated]

section
variable {p : Nat}

/-- What compares as equal to the needle is the needle, unless the two clash. -/
lemma FirstEqual.eq_iff (hitems : (list items).FloatFree) (hv : v.FloatFree)
    (hfirst : FirstEqual items v p) (hw : items[p]? = some w) : w = v ↔ ¬Clash w v := by
  obtain ⟨-, ⟨u, hu, hcompare⟩, -⟩ := hfirst
  cases hw.symm.trans hu
  exact (compare_sound (hitems.of_mem (List.mem_of_getElem? hw)) hv hcompare).1.eq_iff

/-- If the first element that compares as equal to the needle is the needle itself, it is also the
first one of those. -/
lemma firstFrom_eq_iff (hv : v.FloatFree)
    (hagree : ∀ (p : Nat) (w : Value), FirstEqual items v p → items[p]? = some w → w = v) :
    FirstFrom (· = v) items 0 p ↔ FirstEqual items v p := by
  constructor
  · rintro ⟨-, ⟨w, hw, heq⟩, hbefore⟩
    refine ⟨p.zero_le, ⟨w, hw, compare_of_eq hv heq⟩, fun q u _ hqp hu hcompare => ?_⟩
    obtain ⟨r, hrq, hr⟩ : ∃ r ≤ q, FirstEqual items v r :=
      exists_firstFrom q.zero_le hu hcompare
    obtain ⟨x, hx, -⟩ := hr.2.1
    exact hbefore r x r.zero_le (by omega) hx (hagree r x hr hx)
  · intro hfirst
    obtain ⟨-, ⟨w, hw, -⟩, hbefore⟩ := id hfirst
    refine ⟨p.zero_le, ⟨w, hw, hagree p w hfirst hw⟩, fun q u hq hqp hu heq => ?_⟩
    exact hbefore q u hq hqp hu (compare_of_eq hv heq)

end

/-- The search and the comparison agree just when the first element that compares as equal is no
truth value for an integer, nor an integer for a truth value. -/
lemma searchCompares_iff (hitems : (list items).FloatFree) (hv : v.FloatFree) :
    SearchCompares items v ↔
      ∀ (p : Nat) (w : Value), FirstEqual items v p → items[p]? = some w → ¬Clash w v := by
  simp only [SearchCompares, located_eq_ok_iff hitems, located_eq_error_iff hitems]
  constructor
  · rintro ⟨hfound, -⟩ p w hfirst hw hclash
    obtain ⟨-, ⟨u, hu, rfl⟩, -⟩ := (hfound p).mpr hfirst
    cases hw.symm.trans hu
    exact hclash.ne rfl
  · intro hagree
    have hsame (p : Nat) : FirstFrom (· = v) items 0 p ↔ FirstEqual items v p :=
      firstFrom_eq_iff hv fun p w hfirst hw =>
        (hfirst.eq_iff hitems hv hw).mpr (hagree p w hfirst hw)
    exact ⟨hsame, forall_congr' fun p => not_congr (hsame p)⟩

/-- Comparison decides equality, save for lists that are equal with a truth value against an
integer; `!=` is the negation of `==`. The search of a list finds the first element that compares as
equal to the needle just when that one is no truth value for an integer, nor the other way round. -/
theorem equality_exact (ha : a.FloatFree) (hb : b.FloatFree) (hitems : (list items).FloatFree)
    (hv : v.FloatFree) :
    (∃ t, a.compare .eq b = .ok t ∧ a.compare .notEq b = .ok (!t) ∧
      ((t = true ↔ Equals a b) ↔ (a.kind = .list → Equals a b → ¬Clash a b))) ∧
    (SearchCompares items v ↔
      ∀ (p : Nat) (w : Value), FirstEqual items v p → items[p]? = some w → ¬Clash w v) := by
  refine ⟨?_, searchCompares_iff hitems hv⟩
  obtain ⟨t, heq, hne, ht⟩ := compare_iff ha hb
  refine ⟨t, heq, hne, ?_⟩
  rw [ht, and_iff_left_iff_imp]
  exact ⟨fun h hlist hequals => h hequals hlist, fun h hequals hlist => h hlist hequals⟩

theorem equality_exact_numbers :
    FloatFree (.int 1) ∧ FloatFree (.bool true) ∧ FloatFree (.list [.int 2, .int 1]) ∧
    (∃ t, (int 1).compare .eq (.bool true) = .ok t ∧ (t = true ↔ Equals (.int 1) (.bool true))) ∧
    SearchCompares [.int 2, .int 1] (.int 1) := by
  have hitems : FloatFree (.list [.int 2, .int 1]) := .ints [2, 1]
  obtain ⟨⟨t, ht, -, hiff⟩, hsearch⟩ := equality_exact (.int 1) (.bool true) hitems (.int 1)
  refine ⟨.int 1, .bool true, hitems, ⟨t, ht, hiff.mpr nofun⟩, hsearch.mpr fun p w _ hw => ?_⟩
  obtain rfl | rfl : w = .int 2 ∨ w = .int 1 := by
    simpa using List.mem_of_getElem? hw
  · exact nofun
  · exact nofun

/-- The lists `[True]` and `[1]` are equal and do not compare as equal, and the number 1 is not
found in the first one, though it compares as equal to the truth value. -/
theorem equality_split_lists :
    (list [.bool true]).Equals (.list [.int 1]) ∧
    (list [.bool true]).compare .eq (.list [.int 1]) = .ok false ∧
    FirstEqual [.bool true] (.int 1) 0 ∧
    located [.bool true] (.int 1) = .error (.evaluation (.invalid (.notInList "1"))) := by
  refine ⟨.list rfl fun i v w hv hw => ?_, rfl, ?_, rfl⟩
  · obtain rfl : v = .bool true := by simpa using List.mem_of_getElem? hv
    obtain rfl : w = .int 1 := by simpa using List.mem_of_getElem? hw
    exact .number rfl rfl
  · exact ⟨Nat.le_refl 0, ⟨.bool true, rfl, rfl⟩, nofun⟩

end Unmask.Value
