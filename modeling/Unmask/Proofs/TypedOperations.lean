import Mathlib.Data.List.Forall2
import Unmask.Disguise.BlankObf.Folding
import Unmask.Proofs.ExactArithmetic
import Unmask.Proofs.KeptText
import Unmask.Proofs.TypedEvaluation
import Unmask.Proofs.Words

/-!
# Operations with tuples taken for lists

What an operation gives on values, the evaluator gives on the data that are taken for them, up to
tuples. There are two exceptions: floats, which the evaluator does not compute, and sums of a list
and a tuple, which the language does not have.
-/
namespace Unmask

namespace Integer

lemma maskOut_eq (m n : Nat) : maskOut m n = Nat.ldiff m n :=
  Nat.eq_of_testBit_eq fun place => by rw [testBit_maskOut, Nat.testBit_ldiff]

lemma bitAnd_eq (m n : Int) : bitAnd m n = Int.land m n := by
  cases m <;> cases n <;> simp [bitAnd, Int.land, maskOut_eq]

lemma bitOr_eq (m n : Int) : bitOr m n = Int.lor m n := by
  cases m <;> cases n <;> simp [bitOr, Int.lor, maskOut_eq]

lemma bitXor_eq (m n : Int) : bitXor m n = Int.xor m n := by
  cases m <;> cases n <;> simp [bitXor, Int.xor]

end Integer

namespace Typed
namespace Datum
open Value (Bounds)

variable {floats : Floats} {op : BinaryOp} {d e : Datum} {v w u : Value} {ds es : List Datum}
  {vs ws : List Value}

/-- A row is taken for another if it is place by place. -/
lemma values?_iff : values? ds = some vs ↔ ds.map value? = vs.map some := by
  induction ds generalizing vs with
  | nil => cases vs <;> simp [values?]
  | cons d ds ih =>
    rw [values?, List.map_cons]
    cases vs with
    | nil => cases d.value? <;> cases values? ds <;> simp
    | cons v vs =>
      rw [List.map_cons, List.cons.injEq, ← ih]
      cases d.value? <;> cases values? ds <;> simp

lemma value?_list (h : ds.map value? = vs.map some) : (list ds).value? = some (.list vs) := by
  rw [value?, values?_iff.mpr h]
  rfl

lemma value?_tuple (h : ds.map value? = vs.map some) : (tuple ds).value? = some (.list vs) := by
  rw [value?, values?_iff.mpr h]
  rfl

/-- What is taken for a list is a list or a tuple. -/
lemma list_or_tuple (h : d.value? = some (.list vs)) :
    ∃ ds, ds.map value? = vs.map some ∧ (d = .list ds ∨ d = .tuple ds) := by
  cases d with
  | list ds =>
    obtain ⟨_, hds, hvs⟩ := Option.map_eq_some_iff.mp h
    cases hvs
    exact ⟨ds, values?_iff.mp hds, .inl rfl⟩
  | tuple ds =>
    obtain ⟨_, hds, hvs⟩ := Option.map_eq_some_iff.mp h
    cases hvs
    exact ⟨ds, values?_iff.mp hds, .inr rfl⟩
  | _ => cases h

lemma eq_str {s : String} (h : d.value? = some (.str s)) : d = .str s := by
  cases d with
  | list | tuple =>
    obtain ⟨_, -, hvs⟩ := Option.map_eq_some_iff.mp h
    cases hvs
  | str => cases h; rfl
  | _ => cases h

lemma eq_bytes {b : Bytes} (h : d.value? = some (.bytes b)) : d = .bytes b := by
  cases d with
  | list | tuple =>
    obtain ⟨_, -, hvs⟩ := Option.map_eq_some_iff.mp h
    cases hvs
  | bytes => cases h; rfl
  | _ => cases h

lemma eq_bool {b : Bool} (h : d.value? = some (.bool b)) : d = .bool b := by
  cases d with
  | list | tuple =>
    obtain ⟨_, -, hvs⟩ := Option.map_eq_some_iff.mp h
    cases hvs
  | bool => cases h; rfl
  | _ => cases h

lemma integer?_eq (h : d.value? = some v) : d.integer? = v.asInt? := by
  cases d with
  | list | tuple =>
    obtain ⟨_, -, rfl⟩ := Option.map_eq_some_iff.mp h
    rfl
  | ellipsis => cases h
  | _ => cases h; rfl

lemma number?_eq (h : d.value? = some v) : d.number? = v.number? := by
  cases d with
  | list | tuple =>
    obtain ⟨_, -, rfl⟩ := Option.map_eq_some_iff.mp h
    rfl
  | ellipsis => cases h
  | _ => cases h; rfl

lemma holds_eq (h : d.value? = some v) : d.holds = v.truthy := by
  have hrow {ds : List Datum} {vs : List Value} (h : values? ds = some vs) :
      ds.isEmpty = vs.isEmpty := by
    have hlength := congrArg List.length (values?_iff.mp h)
    cases ds <;> cases vs <;> simp_all
  cases d with
  | list ds =>
    obtain ⟨vs, hvs, rfl⟩ := Option.map_eq_some_iff.mp h
    rw [Value.truthy, ← hrow hvs]
    cases ds <;> rfl
  | tuple ds =>
    obtain ⟨vs, hvs, rfl⟩ := Option.map_eq_some_iff.mp h
    rw [Value.truthy, ← hrow hvs]
    cases ds <;> rfl
  | ellipsis => cases h
  | int n =>
    cases h
    simp [holds, Value.truthy, bne, BEq.beq]
  | str s =>
    cases h
    by_cases hs : s = ""
    · rw [hs]
      rfl
    · have hempty : s.isEmpty = false := Bool.eq_false_iff.mpr (mt String.isEmpty_iff.mp hs)
      rw [holds, Value.truthy, decide_eq_true hs, hempty]
      rfl
  | bytes b =>
    cases h
    cases b <;> simp [holds, Value.truthy]
  | _ =>
    cases h
    rfl

lemma unary_ok {op : UnaryOp} (hd : d.value? = some v) (h : v.unary op = .ok u) :
    ∃ r, d.unary op = some r ∧ r.value? = some u := by
  have hnumber := number?_eq hd
  cases op with
  | not =>
    cases h
    exact ⟨_, rfl, by rw [holds_eq hd]; rfl⟩
  | invert =>
    cases hv : v.number? with
    | none => simp [Value.unary, hv] at h
    | some a =>
      cases a with
      | int n =>
        have hu : u = .int (-(n + 1)) := by
          simp only [Value.unary, hv, Integer.bitNot, Except.ok.injEq] at h
          rw [← h]
          congr 1
          omega
        exact ⟨.int (-(n + 1)), by simp [unary, hnumber, hv], by rw [hu]; rfl⟩
      | float x => simp [Value.unary, hv] at h
  | plus | minus =>
    cases hv : v.number? with
    | none => simp [Value.unary, hv] at h
    | some a =>
      cases a <;>
      · simp only [Value.unary, hv, Except.ok.injEq] at h
        subst h
        exact ⟨_, by simp [unary, hnumber, hv]; rfl, rfl⟩

section Arithmetic
open Number

variable {a b : Int}

lemma floatBinary_float {x y : Float} (h : floatBinary op x y = .ok u) : ∃ z, u = .float z := by
  cases op <;> simp only [floatBinary] at h <;> (try split at h) <;>
    first | cases h; exact ⟨_, rfl⟩ | cases h

lemma intAsFloatBinary_float (h : intAsFloatBinary op a b = .ok u) : ∃ z, u = .float z := by
  obtain ⟨x, h⟩ := Value.exists_of_bind h
  obtain ⟨y, h⟩ := Value.exists_of_bind h
  exact floatBinary_float h

lemma floatOperands_float {x y : Number} (h : Value.floatOperands op v w x y = .ok u) :
    ∃ z, u = .float z := by
  obtain ⟨x, h⟩ := Value.exists_of_bind h
  obtain ⟨y, h⟩ := Value.exists_of_bind h
  cases hresult : floatBinary op x y with
  | error e =>
    rw [hresult] at h
    cases e <;> contradiction
  | ok r =>
    rw [hresult] at h
    cases h
    exact floatBinary_float hresult

/-- Integers give a float, or else what the evaluator gives. -/
lemma intBinary_ok (floats : Floats) (h : intBinary op a b = .ok u) :
    (∃ z, u = .float z) ∨
      ∃ n, u = .int n ∧ arithmetic floats op (.int a) (.int b) = some (.int n) := by
  cases op with
  | add | sub | mult =>
    obtain ⟨-, h⟩ := Value.of_unless h
    cases h
    exact .inr ⟨_, rfl, rfl⟩
  | floorDiv | mod =>
    obtain ⟨hb, h⟩ := Value.of_unless h
    cases h
    exact .inr ⟨_, rfl, by simp_all [arithmetic, Evaluation.arithmetic]⟩
  | div =>
    obtain ⟨-, h⟩ := Value.of_unless h
    exact .inl (intAsFloatBinary_float h)
  | pow =>
    change power a b = .ok u at h
    unfold power at h
    split at h
    · exact .inl (intAsFloatBinary_float h)
    · next hb =>
      split at h
      · cases h
        exact .inr ⟨_, rfl, by simp [arithmetic, Int.not_lt.mp hb, Integer.power_eq]⟩
      · contradiction
  | shiftLeft =>
    obtain ⟨hb, h⟩ := Value.of_unless h
    obtain ⟨-, h⟩ := Value.of_unless h
    cases h
    exact .inr ⟨_, rfl, by simp [arithmetic, Evaluation.arithmetic, hb, Integer.shiftLeft]⟩
  | shiftRight =>
    obtain ⟨hb, h⟩ := Value.of_unless h
    cases h
    have hpos : (0 : Int) ≤ 2 ^ b.toNat := by positivity
    refine .inr ⟨_, rfl, ?_⟩
    simp [arithmetic, Evaluation.arithmetic, hb, Integer.shiftRight_eq,
      Int.fdiv_eq_ediv_of_nonneg _ hpos]
  | bitAnd =>
    cases h
    exact .inr ⟨_, rfl, by rw [Integer.bitAnd_eq]; rfl⟩
  | bitOr =>
    cases h
    exact .inr ⟨_, rfl, by rw [Integer.bitOr_eq]; rfl⟩
  | bitXor =>
    cases h
    exact .inr ⟨_, rfl, by rw [Integer.bitXor_eq]; rfl⟩
  | matMult => contradiction

/-- Numbers give a float, or else they are integers and give what the evaluator gives. -/
lemma numericBinary_ok (floats : Floats) (hd : d.value? = some v) (he : e.value? = some w)
    (h : Value.numericBinary op v w = .ok u) :
    (∃ z, u = .float z) ∨ ∃ n, u = .int n ∧ d.integer?.isSome ∧ e.integer?.isSome ∧
      numeric floats op d e = some (.int n) := by
  have hint {d : Datum} {v : Value} {m : Int} (hd : d.value? = some v)
      (hv : v.number? = some (.int m)) : d.integer?.isSome := by
    rw [integer?_eq hd]
    cases v <;> simp_all [Value.number?, Value.asInt?]
  unfold Value.numericBinary at h
  split at h
  · next m n hm hn =>
    refine (intBinary_ok floats h).imp_right ?_
    rintro ⟨r, rfl, hr⟩
    refine ⟨r, rfl, hint hd hm, hint he hn, ?_⟩
    rw [numeric, number?_eq hd, number?_eq he, hm, hn]
    exact hr
  · exact .inl (floatOperands_float h)
  · contradiction

end Arithmetic

/-- A list and a tuple. -/
def Mixed : Datum → Datum → Prop
  | .list _, .tuple _ => True
  | .tuple _, .list _ => True
  | _, _ => False

/-- Two sequences that are joined are of one type, or they are a list and a tuple. -/
lemma joined_ok (hd : d.value? = some v) (he : e.value? = some w) (hmixed : ¬Mixed d e)
    (h : Value.joined? v w = some (.ok u)) : ∃ r, joined d e = some r ∧ r.value? = some u := by
  unfold Value.joined? at h
  split at h
  · obtain ⟨-, h⟩ := Value.of_unless (Option.some.inj h)
    cases h
    obtain rfl := eq_str hd
    obtain rfl := eq_str he
    exact ⟨_, rfl, rfl⟩
  · obtain ⟨-, h⟩ := Value.of_unless (Option.some.inj h)
    cases h
    obtain rfl := eq_bytes hd
    obtain rfl := eq_bytes he
    exact ⟨_, rfl, rfl⟩
  · next vs ws =>
    obtain ⟨-, h⟩ := Value.of_unless (Option.some.inj h)
    cases h
    obtain ⟨ds, hds, hd⟩ := list_or_tuple hd
    obtain ⟨es, hes, he⟩ := list_or_tuple he
    have hrow : (ds ++ es).map value? = (vs ++ ws).map some := by
      rw [List.map_append, List.map_append, hds, hes]
    obtain rfl | rfl := hd <;> obtain rfl | rfl := he
    · exact ⟨_, rfl, value?_list hrow⟩
    · exact absurd trivial hmixed
    · exact absurd trivial hmixed
    · exact ⟨_, rfl, value?_tuple hrow⟩
  · contradiction

lemma copies_eq {α : Type} (n : Nat) (items : List α) :
    Value.copies n items = (List.replicate n items).flatten := by
  unfold Value.copies
  split
  · next h => simp [List.isEmpty_iff.mp h]
  · rfl

lemma repeated_ok (hd : d.value? = some v) (he : e.value? = some w)
    (h : v.repeated? w = some (.ok u)) : ∃ r, repeated d e = some r ∧ r.value? = some u := by
  obtain ⟨n, hn, h⟩ := Option.bind_eq_some_iff.mp h
  have hcount : e.integer? = some n := (integer?_eq he).trans hn
  cases v with
  | str s =>
    obtain ⟨-, h⟩ := Value.of_unless (Option.some.inj h)
    cases h
    obtain rfl := eq_str hd
    exact ⟨_, by rw [repeated, hcount]; rfl, by rw [value?, copies_eq]⟩
  | bytes b =>
    obtain ⟨-, h⟩ := Value.of_unless (Option.some.inj h)
    cases h
    obtain rfl := eq_bytes hd
    exact ⟨_, by rw [repeated, hcount]; rfl, by rw [value?, copies_eq]⟩
  | list vs =>
    obtain ⟨-, h⟩ := Value.of_unless (Option.some.inj h)
    cases h
    obtain ⟨ds, hds, hd⟩ := list_or_tuple hd
    have hrow : (List.replicate n.toNat ds).flatten.map value? =
        (Value.copies n.toNat vs).map some := by
      simp [copies_eq, List.map_flatten, hds]
    obtain rfl | rfl := hd
    · exact ⟨_, by rw [repeated, hcount]; rfl, value?_list hrow⟩
    · exact ⟨_, by rw [repeated, hcount]; rfl, value?_tuple hrow⟩
  | _ => cases h

/-- What is no sequence is not repeated. -/
lemma repeated_none (hd : d.value? = some v) (hv : v.isSequence = false) (e : Datum) :
    repeated d e = Option.none := by
  unfold repeated
  cases e.integer? with
  | none => rfl
  | some n =>
    cases d with
    | str | bytes =>
      cases hd
      cases hv
    | list | tuple =>
      obtain ⟨_, -, rfl⟩ := Option.map_eq_some_iff.mp hd
      cases hv
    | _ => rfl

lemma joined_none (hd : d.integer?.isSome) (e : Datum) : joined d e = Option.none := by
  cases d <;> first | rfl | cases hd

/-- Operands on which an operator is what it is on values: for `+` not a list and a tuple, and a
float that comes out is that of the language. -/
structure Fit (floats : Floats) (op : BinaryOp) (d e : Datum) : Prop where
  alike : op = .add → ¬Mixed d e
  float (v w : Value) (x : Float) : d.value? = some v → e.value? = some w →
    v.binary op w = .ok (.float x) → d.binary floats op e = some (.float x)

lemma binary_other (hadd : op ≠ .add) (hmult : op ≠ .mult) :
    d.binary floats op e = (logical op d e).or (numeric floats op d e) := by
  cases op <;> first | rfl | contradiction

lemma logical?_eq (op : BinaryOp) (p q : Bool) :
    Evaluation.logical? op p q = Value.boolBinary? op p q := by
  cases op <;> cases p <;> cases q <;> rfl

/-- What gives no float on values gives the same integer. -/
lemma numeric_ok (floats : Floats) (hd : d.value? = some v) (he : e.value? = some w)
    (hu : ¬∃ x, u = .float x) (h : Value.numericBinary op v w = .ok u) : ∃ n, u = .int n ∧
      d.integer?.isSome ∧ e.integer?.isSome ∧ numeric floats op d e = some (.int n) :=
  (numericBinary_ok floats hd he h).resolve_left hu

lemma add_ok (floats : Floats) (hmixed : ¬Mixed d e) (hd : d.value? = some v)
    (he : e.value? = some w) (hu : ¬∃ x, u = .float x) (h : v.binary .add w = .ok u) :
    ∃ r, d.binary floats .add e = some r ∧ r.value? = some u := by
  rw [Value.binary] at h
  cases hjoined : Value.joined? v w with
  | some x =>
    rw [hjoined] at h
    obtain ⟨r, hr, hru⟩ := joined_ok hd he hmixed (hjoined.trans (congrArg some h))
    exact ⟨r, by rw [binary, hr]; rfl, hru⟩
  | none =>
    rw [hjoined] at h
    obtain ⟨n, rfl, hint, -, hn⟩ := numeric_ok floats hd he hu h
    exact ⟨.int n, by rw [binary, joined_none hint]; exact hn, rfl⟩

lemma mult_ok (floats : Floats) (hd : d.value? = some v) (he : e.value? = some w)
    (hu : ¬∃ x, u = .float x) (h : v.binary .mult w = .ok u) :
    ∃ r, d.binary floats .mult e = some r ∧ r.value? = some u := by
  -- A sequence is repeated or refused, whichever of the operands it is.
  have hrow {x y : Value}
      (h : (x.repeated? y).getD (.error (Value.unsupported (.binary .mult) v w)) = .ok u) :
      x.repeated? y = some (.ok u) := by
    cases hrow : x.repeated? y with
    | some z =>
      rw [hrow] at h
      exact congrArg some h
    | none =>
      rw [hrow] at h
      contradiction
  rw [Value.binary] at h
  split at h
  · obtain ⟨r, hr, hru⟩ := repeated_ok hd he (hrow h)
    exact ⟨r, by rw [binary, hr]; rfl, hru⟩
  · next hv =>
    have hnone := repeated_none hd (Bool.eq_false_iff.mpr hv) e
    split at h
    · obtain ⟨r, hr, hru⟩ := repeated_ok he hd (hrow h)
      exact ⟨r, by rw [binary, hnone, hr]; rfl, hru⟩
    · next hw =>
      obtain ⟨n, rfl, -, -, hn⟩ := numeric_ok floats hd he hu h
      have hnone' := repeated_none he (Bool.eq_false_iff.mpr hw) d
      exact ⟨.int n, by rw [binary, hnone, hnone']; exact hn, rfl⟩

lemma other_ok (floats : Floats) (hadd : op ≠ .add) (hmult : op ≠ .mult)
    (hd : d.value? = some v) (he : e.value? = some w) (hu : ¬∃ x, u = .float x)
    (h : v.binary op w = .ok u) : ∃ r, d.binary floats op e = some r ∧ r.value? = some u := by
  rw [binary_other hadd hmult]
  unfold Value.binary at h
  split at h
  · contradiction
  · contradiction
  split at h
  · next p q =>
    obtain rfl := eq_bool hd
    obtain rfl := eq_bool he
    cases hbits : Value.boolBinary? op p q with
    | some b =>
      rw [hbits] at h
      cases h
      exact ⟨.bool b, by rw [logical, logical?_eq, hbits]; rfl, rfl⟩
    | none =>
      rw [hbits] at h
      obtain ⟨n, rfl, -, -, hn⟩ := numeric_ok floats hd he hu h
      exact ⟨.int n, by rw [logical, logical?_eq, hbits]; exact hn, rfl⟩
  · next hother =>
    obtain ⟨n, rfl, -, -, hn⟩ := numeric_ok floats hd he hu h
    have hnone : logical op d e = Option.none := by
      unfold logical
      split
      · next p q =>
        cases hd
        cases he
        exact absurd rfl (hother p q rfl)
      · rfl
    exact ⟨.int n, by rw [hnone]; exact hn, rfl⟩

/-- What operands that fit give as values, they give as data. -/
theorem binary_ok (hfit : Fit floats op d e) (hd : d.value? = some v) (he : e.value? = some w)
    (h : v.binary op w = .ok u) : ∃ r, d.binary floats op e = some r ∧ r.value? = some u := by
  obtain ⟨x, rfl⟩ | hu := em (∃ x, u = .float x)
  · exact ⟨_, hfit.float v w x hd he h, rfl⟩
  by_cases hadd : op = .add
  · subst hadd
    exact add_ok floats (hfit.alike rfl) hd he hu h
  by_cases hmult : op = .mult
  · subst hmult
    exact mult_ok floats hd he hu h
  exact other_ok floats hadd hmult hd he hu h

lemma element?_map {α β : Type} (f : α → β) (items : List α) (n : Int) :
    Evaluation.element? (items.map f) n = (Evaluation.element? items n).map f := by
  unfold Evaluation.element? Evaluation.at?
  rw [List.length_map]
  generalize (if n < 0 then n + (items.length : Int) else n) = place
  split
  · exact List.getElem?_map
  · rfl

lemma select_map {α β : Type} (f : α → β) (items : List α) (b : Bounds) :
    b.select (items.map f) = (b.select items).map f := by
  simp only [Bounds.select, List.length_map, List.map_filterMap]
  congr 1
  funext place
  simp

/-- The place of an element says what it is taken for. -/
lemma element?_value {n : Int} (hrow : ds.map value? = vs.map some)
    (h : Value.element? vs n = some u) :
    ∃ r, Evaluation.element? ds n = some r ∧ r.value? = some u := by
  have hfound := element?_map value? ds n
  rw [hrow, element?_map, Evaluation.element_eq, h] at hfound
  exact Option.map_eq_some_iff.mp hfound.symm

theorem item_ok {k : Value} (hd : d.value? = some v) (he : e.value? = some k)
    (h : v.index k = .ok u) : ∃ r, d.item e = some r ∧ r.value? = some u := by
  have hkey := integer?_eq he
  unfold Value.index at h
  cases hn : k.asInt? with
  | none => simp [hn] at h
  | some n =>
    rw [hn] at hkey h
    rw [item, hkey, Option.bind_some]
    cases v with
    | str s =>
      obtain rfl := eq_str hd
      dsimp only at h ⊢
      split at h
      · next w hfound =>
        cases h
        obtain ⟨c, hc, rfl⟩ := Option.map_eq_some_iff.mp hfound
        exact ⟨_, by rw [Evaluation.element_eq, hc]; rfl, rfl⟩
      · contradiction
    | bytes b =>
      obtain rfl := eq_bytes hd
      dsimp only at h ⊢
      split at h
      · next w hfound =>
        cases h
        obtain ⟨o, ho, rfl⟩ := Option.map_eq_some_iff.mp hfound
        exact ⟨_, by rw [Evaluation.element_eq, ho]; rfl, rfl⟩
      · contradiction
    | list vs =>
      obtain ⟨ds, hds, hd⟩ := list_or_tuple hd
      dsimp only at h
      split at h
      · next w hfound =>
        cases h
        obtain rfl | rfl := hd <;> exact element?_value hds hfound
      · contradiction
    | _ => contradiction

theorem slice_ok {b : Bounds} (hd : d.value? = some v) (h : v.slice b = .ok u) :
    ∃ r, d.slice b.lower b.upper b.step = some r ∧ r.value? = some u := by
  unfold Value.slice at h
  have hstep (hb : ¬b.step = some 0) : b.step.getD 1 ≠ 0 := by
    cases hs : b.step <;> simp_all
  cases v with
  | str s =>
    obtain ⟨hb, h⟩ := Value.of_unless h
    cases h
    obtain rfl := eq_str hd
    exact ⟨_, by simp [slice, hstep hb, Evaluation.sliced_eq_select _ b (hstep hb)]; rfl, rfl⟩
  | bytes o =>
    obtain ⟨hb, h⟩ := Value.of_unless h
    cases h
    obtain rfl := eq_bytes hd
    exact ⟨_, by simp [slice, hstep hb, Evaluation.sliced_eq_select _ b (hstep hb)]; rfl, rfl⟩
  | list vs =>
    obtain ⟨hb, h⟩ := Value.of_unless h
    cases h
    obtain ⟨ds, hds, hd⟩ := list_or_tuple hd
    have hrow : (b.select ds).map value? = (b.select vs).map some := by
      rw [← select_map, ← select_map, hds]
    obtain rfl | rfl := hd
    · exact ⟨_, by simp [slice, hstep hb, Evaluation.sliced_eq_select _ b (hstep hb)],
        value?_list hrow⟩
    · exact ⟨_, by simp [slice, hstep hb, Evaluation.sliced_eq_select _ b (hstep hb)],
        value?_tuple hrow⟩
  | _ => contradiction

end Datum

section Numerals
open BlankObf (digitsValue? integer?)

variable {cs : List Char} {n : Nat} {k : Int}

lemma ne_lowLine {c : Char} (h : Text.isAsciiDigit c) : c ≠ '_' := by
  rintro rfl
  exact absurd h (by decide)

lemma exists_digit_of_spelled (h : spelled cs) :
    ∃ c rest, cs = c :: rest ∧ Text.isAsciiDigit c := by
  unfold spelled at h
  split at h
  · contradiction
  · next c => exact ⟨c, [], rfl, h⟩
  · next c rest => exact ⟨c, _, rfl, (Bool.and_eq_true_iff.mp h).1⟩
  · next c rest _ _ => exact ⟨c, _, rfl, (Bool.and_eq_true_iff.mp h).1⟩

/-- Without the low lines a numeral is digits. -/
lemma digits_of_spelled (h : spelled cs) : (cs.filter (· != '_')).all Text.isAsciiDigit := by
  fun_induction spelled cs with
  | case1 => contradiction
  | case2 c => simp [h, ne_lowLine h]
  | case3 c rest ih =>
    obtain ⟨hc, hrest⟩ := Bool.and_eq_true_iff.mp h
    simpa [hc, ne_lowLine hc] using ih hrest
  | case4 c rest _ _ ih =>
    obtain ⟨hc, hrest⟩ := Bool.and_eq_true_iff.mp h
    simpa [hc, ne_lowLine hc] using ih hrest

lemma natural_ok (h : natural? cs = some n) : digitsValue? cs = some n := by
  unfold natural? at h
  dsimp only at h
  split at h
  · next hcs =>
    obtain ⟨c, rest, rfl, hc⟩ := exists_digit_of_spelled hcs.1
    cases h
    have hhead : ¬(((c :: rest).head? == some '_' || (c :: rest).isEmpty) = true) := by
      simpa using ne_lowLine hc
    rw [digitsValue?, if_neg hhead, ← digitsValue_eq]
    exact if_pos (digits_of_spelled hcs.1)
  · contradiction

/-- A numeral is read as the number that it denotes. -/
theorem numeral_ok (h : numeral? cs = some k) : integer? cs = some k := by
  unfold numeral? at h
  split at h
  · obtain ⟨n, hn, rfl⟩ := Option.map_eq_some_iff.mp h
    rw [integer?, natural_ok hn]
    rfl
  · obtain ⟨n, hn, rfl⟩ := Option.map_eq_some_iff.mp h
    rw [integer?, natural_ok hn]
    rfl
  · next hminus hplus =>
    obtain ⟨n, hn, rfl⟩ := Option.map_eq_some_iff.mp h
    rw [integer?, natural_ok hn]
    · rfl
    · exact hminus
    · exact hplus

end Numerals

section Calls
open Datum

variable {d : Datum} {v : Value} {b : Bytes}

/-- Rows that are gone through place by place. -/
lemma mapM_ok {α α' β β' : Type} {R : α → α' → Prop} {as : List α} {bs : List α'}
    {f : α → Option β} {g : α' → Option β'} {make : β' → β} {made : List β'}
    (hrows : List.Forall₂ R as bs)
    (hfg : ∀ a ∈ as, ∀ b made, R a b → g b = some made → f a = some (make made))
    (hmade : bs.mapM g = some made) : as.mapM f = some (made.map make) := by
  induction hrows generalizing made with
  | nil =>
    cases hmade
    rfl
  | @cons a b as bs hab hrows ih =>
    rw [List.mapM_cons] at hmade ⊢
    obtain ⟨first, hfirst, hmade⟩ := Option.bind_eq_some_iff.mp hmade
    obtain ⟨rest, hrest, hmade⟩ := Option.bind_eq_some_iff.mp hmade
    cases hmade
    have htail := ih (fun a ha => hfg a (List.mem_cons_of_mem _ ha)) hrest
    rw [hfg a List.mem_cons_self b first hab hfirst, htail]
    rfl

lemma forall₂_of_row {ds : List Datum} {vs : List Value} (h : ds.map value? = vs.map some) :
    List.Forall₂ (fun d v => d.value? = some v) ds vs := by
  have heq : List.Forall₂ Eq (ds.map value?) (vs.map some) := by
    rw [h]
    exact List.forall₂_refl _
  simpa using heq

lemma octet?_eq (h : d.value? = some v) : octet? d = v.asInt?.bind BlankObf.octet? := by
  rw [octet?, integer?_eq h]
  congr 1
  funext n
  simp [BlankObf.octet?]

theorem bytes_ok (hd : d.value? = some v) (h : BlankObf.octets? v = some b) :
    call "bytes" [d] = some (.bytes b) := by
  cases v with
  | bytes o =>
    cases h
    obtain rfl := eq_bytes hd
    rfl
  | list vs =>
    obtain ⟨ds, hds, hd⟩ := list_or_tuple hd
    have hoctets : ds.mapM octet? = some (b.map id) :=
      mapM_ok (forall₂_of_row hds) (fun d _ v o hv ho => (octet?_eq hv).trans ho) h
    rw [List.map_id] at hoctets
    obtain rfl | rfl := hd
    · rw [call, hoctets]
      rfl
    · rw [call, hoctets]
      rfl
  | _ => contradiction

/-- A text that names UTF-8 as an encoding, and that may name a way to handle errors too. -/
def NamesUtf8 (s : String) : Prop := Charset.ofName? s = some .utf8 ∧ '\x00' ∉ s.toList

/-- What counts as a name of UTF-8 is one. -/
lemma exists_name_of_namesUtf8 {arg : Expr} (h : BlankObf.namesUtf8 arg) :
    ∃ s, arg = .constant (.str s) ∧ NamesUtf8 s := by
  cases hs : arg.str? with
  | none => simp [BlankObf.namesUtf8, hs] at h
  | some s =>
    have harg : arg = .constant (.str s) := by
      unfold Expr.str? at hs
      split at hs
      · cases hs
        rfl
      · contradiction
    subst harg
    have hlower : s.toList.map Text.asciiLower = "utf-8".toList ∨
        s.toList.map Text.asciiLower = "utf8".toList := by
      have hnames : String.ofList (s.toList.map Text.asciiLower) = "utf-8" ∨
          String.ofList (s.toList.map Text.asciiLower) = "utf8" := by
        simpa [BlankObf.namesUtf8, Expr.str?] using h
      rw [← String.toList_ofList (l := s.toList.map Text.asciiLower)]
      exact hnames.imp (congrArg String.toList) (congrArg String.toList)
    have hmem {c : Char} (hc : c ∈ s.toList) :
        Text.asciiLower c ∈ "utf-8".toList ++ "utf8".toList := by
      have hc := List.mem_map_of_mem (f := Text.asciiLower) hc
      obtain h | h := hlower
      · exact List.mem_append_left _ (h ▸ hc)
      · exact List.mem_append_right _ (h ▸ hc)
    have hkey : s.toList.map (fun c => if c == '_' then '-' else Text.asciiLower c) =
        s.toList.map Text.asciiLower := by
      refine List.map_congr_left fun c hc => if_neg fun hline => ?_
      obtain rfl := beq_iff_eq.mp hline
      exact absurd (hmem hc) (by decide)
    refine ⟨s, rfl, ?_, fun hnul => absurd (hmem hnul) (by decide)⟩
    rw [Charset.ofName?, hkey]
    exact if_pos hlower

/-- Up to two texts that name UTF-8 ask for it. -/
lemma asksUtf8_of {names : List String} (h : ∀ s ∈ names, NamesUtf8 s)
    (hlength : names.length ≤ 2) : asksUtf8 (names.map Datum.str) := by
  match names with
  | [] => rfl
  | [s] => exact decide_eq_true (h s List.mem_cons_self).1
  | [s, t] =>
    have ht : NamesUtf8 t := h t (by simp)
    exact Bool.and_eq_true_iff.mpr
      ⟨decide_eq_true (h s List.mem_cons_self).1, decide_eq_true ht.2⟩
  | _ :: _ :: _ :: _ => exact absurd hlength (by simp)

end Calls

end Typed
end Unmask
