import Mathlib.Data.List.Forall2
import Unmask.Proofs.Running
import Unmask.Proofs.Slicing

/-!
# Folding keeps values

An expression without names and floats resolves to the value that it evaluates to, or to another
expression of this sort that evaluates alike, errors included.
-/
namespace Unmask.Evaluation
open Value

variable {format : Value → Value → Option Value}

mutual

theorem eval_toExpr {v : Value} (h : Exact v) : eval format v.toExpr = some v := by
  cases h with
  | list hitems =>
    simp [toExpr, eval, evalAll_toExprs hitems]
  | _ => rfl

theorem evalAll_toExprs {items : List Value} (h : ∀ v ∈ items, Exact v) :
    evalAll format (toExprs items) = some items := by
  cases items with
  | nil => rfl
  | cons v rest =>
    have hv := eval_toExpr (h v List.mem_cons_self)
    have hrest := evalAll_toExprs fun w hw => h w (List.mem_cons_of_mem v hw)
    simp [toExprs, evalAll, hv, hrest]

end

lemma toExprs_eq_map (items : List Value) : toExprs items = items.map toExpr := by
  induction items with
  | nil => rfl
  | cons v rest ih => simp [toExprs, ih]

theorem closed_toExpr {v : Value} (h : Exact v) : Closed v.toExpr := by
  induction h with
  | bool b => exact .bool b
  | int n => exact .int n
  | str s => exact .str s
  | bytes b => exact .bytes b
  | list hitems ih =>
    rw [toExpr, toExprs_eq_map]
    refine .list fun e he => ?_
    obtain ⟨v, hv, rfl⟩ := List.mem_map.mp he
    exact ih v hv

lemma number_of_int {v : Value} {n : Int} (h : v.asInt? = some n) : number? v = some n := by
  cases v with
  | bool b => cases b <;> simpa [asInt?, number?] using h
  | int m => simpa [asInt?, number?] using h
  | _ => simp [asInt?] at h

lemma holds_eq_truthy {v : Value} {n : Int} (h : v.asInt? = some n) : holds v = v.truthy := by
  cases v with
  | bool b => rfl
  | int m => simp [holds, truthy, bne, BEq.beq]
  | _ => simp [asInt?] at h

/-- An operator on an integer gives what the evaluator gives. -/
lemma unary_ok {op : UnaryOp} {v w : Value} {n : Int} (hv : v.asInt? = some n)
    (h : v.unary op = .ok w) : unary op v = some w ∧ Exact w := by
  have hn := number_of_int hv
  have hnum : v.number? = some (.int n) := by
    cases v <;> simp_all [asInt?, Value.number?]
  cases op with
  | not =>
    simp only [Value.unary, Except.ok.injEq] at h
    subst h
    exact ⟨by simp [unary, holds_eq_truthy hv], .bool _⟩
  | invert =>
    simp only [Value.unary, hnum, Integer.bitNot, Except.ok.injEq] at h
    subst h
    refine ⟨?_, .int _⟩
    simp only [unary, hn, Option.map_some, Option.some.injEq, Value.int.injEq]
    omega
  | plus | minus =>
    simp only [Value.unary, hnum, Except.ok.injEq] at h
    subst h
    exact ⟨by simp [unary, hn], .int _⟩

/-- A sum or a difference of integers that is not too large is what the evaluator gives. -/
lemma binary_ok {op : BinaryOp} {v w u : Value} {m n : Int} (hop : op = .add ∨ op = .sub)
    (hv : v.asInt? = some m) (hw : w.asInt? = some n) (h : v.binary op w = .ok u) :
    binary format op v w = some u ∧ Exact u := by
  have hv' := number_of_int hv
  have hw' := number_of_int hw
  have hcomputed : v.binary op w = Number.intBinary op m n := by
    rcases hop with rfl | rfl <;> cases v <;> cases w <;>
      simp_all [asInt?, Value.binary, joined?, numericBinary, Value.number?, boolBinary?]
  have hplain : binary format op v w = (arithmetic op m n).map Value.int := by
    rcases hop with rfl | rfl <;> cases v <;> cases w <;>
      simp_all [asInt?, binary, numeric, logical?]
  rw [hcomputed] at h
  rcases hop with rfl | rfl <;>
  · simp only [Number.intBinary, Number.bounded] at h
    split at h
    · cases h
    · cases h
      exact ⟨by rw [hplain]; rfl, .int _⟩

lemma mem_of_at {α : Type} {items : List α} {place : Int} {a : α} (h : at? items place = some a) :
    a ∈ items := by
  unfold at? at h
  split at h
  · exact List.mem_of_getElem? h
  · cases h

lemma exact_of_item {v key w : Value} (hv : Exact v) (h : item v key = some w) : Exact w := by
  obtain ⟨n, -, h⟩ := Option.bind_eq_some_iff.mp h
  cases hv with
  | str s =>
    obtain ⟨c, -, rfl⟩ := Option.map_eq_some_iff.mp h
    exact .str _
  | bytes b =>
    obtain ⟨o, -, rfl⟩ := Option.map_eq_some_iff.mp h
    exact .int _
  | list hitems => exact hitems w (mem_of_at h)
  | _ => cases h

lemma exact_of_slice {v w : Value} {b : Bounds} (hv : Exact v) (h : v.slice b = .ok w) :
    Exact w := by
  unfold Value.slice at h
  cases hv with
  | str s =>
    simp only at h
    split at h
    · cases h
    · cases h; exact .str _
  | bytes o =>
    simp only at h
    split at h
    · cases h
    · cases h; exact .bytes _
  | list hitems =>
    simp only at h
    split at h
    · cases h
    · cases h
      refine .list fun v hv => ?_
      obtain ⟨place, -, hget⟩ := List.mem_filterMap.mp hv
      exact hitems v (List.mem_of_getElem? (by simpa using hget))
  | _ => cases h

/-- A resolved expression stands for an expression: written again it is of the same sort and
evaluates alike, and if it is known it is known as a value. -/
structure Agrees (format : Value → Value → Option Value) (e : Expr) (r : Resolved) : Prop where
  closed : Closed r.toExpr
  eval_eq : eval format r.toExpr = eval format e
  value : ∀ m, r = .mock m → ∃ name v, m = .value name v ∧ Exact v

lemma Agrees.ofValue {e : Expr} {v : Value} (hv : Exact v) (he : eval format e = some v) :
    Agrees format e (.ofValue v) := by
  have hr : Resolved.ofValue v = .mock (.value v.kind.name v) := by
    cases hv <;> rfl
  rw [hr]
  refine ⟨closed_toExpr hv, ?_, ?_⟩
  · rw [he]
    exact eval_toExpr hv
  · rintro m ⟨⟩
    exact ⟨_, v, rfl, hv⟩

/-- An expression that stays one. -/
lemma Agrees.residual {e r : Expr} (hr : Closed r) (he : eval format r = eval format e) :
    Agrees format e (.expr r) :=
  ⟨hr, he, fun _ h => nomatch h⟩

/-- What is known of an expression is its value. -/
lemma Agrees.of_value {e : Expr} {r : Resolved} {v : Value} (h : Agrees format e r)
    (hv : r.value? = some v) : eval format e = some v ∧ Exact v := by
  obtain ⟨name, rfl⟩ := Resolved.eq_mock_of_value hv
  obtain ⟨_, _, hm, hexact⟩ := h.value _ rfl
  cases hm
  exact ⟨h.eval_eq.symm.trans (eval_toExpr hexact), hexact⟩

open Resolving

lemma constant_agrees {c : Constant} (h : Closed (.constant c)) :
    Agrees format (.constant c) (Resolve.constant c) := by
  cases h with
  | int n => exact .ofValue (.int n) rfl
  | bool b => exact .ofValue (.bool b) rfl
  | str s => exact .ofValue (.str s) rfl
  | bytes b => exact .ofValue (.bytes b) rfl

theorem unary_agrees {op : UnaryOp} {operand : Expr} {r : Resolved}
    (h : Agrees format operand r) :
    Gives (Resolve.unary op r) (Agrees format (.unary op operand)) := by
  have hresidual : Agrees format (.unary op operand) (.expr (.unary op r.toExpr)) :=
    .residual (.unary h.closed) (by rw [eval, eval, h.eval_eq])
  unfold Resolve.unary
  split
  · exact .pure hresidual
  · next v hv =>
    obtain ⟨hvalue, n, hn⟩ := Resolved.intLike_spec hv
    split
    · next result hresult =>
      obtain ⟨hop, hexact⟩ := unary_ok hn hresult
      exact .pure (.ofValue hexact (by rw [eval, (h.of_value hvalue).1]; exact hop))
    · exact .after (.pure hresidual)

theorem binary_agrees {op : BinaryOp} {left right : Expr} {l r : Resolved} (ho : op ∈ exactOps)
    (hl : Agrees format left l) (hr : Agrees format right r) :
    Gives (Resolve.binary l op r) (Agrees format (.binary left op right)) := by
  have hresidual : Agrees format (.binary left op right)
      (.expr (.binary l.toExpr op r.toExpr)) :=
    .residual (.binary ho hl.closed hr.closed) (by rw [eval, eval, hl.eval_eq, hr.eval_eq])
  unfold Resolve.binary
  split
  · next hop =>
    have hop : op = .add ∨ op = .sub := by simpa using hop
    split
    · next v w hv hw =>
      obtain ⟨hv, m, hm⟩ := Resolved.intLike_spec hv
      obtain ⟨hw, n, hn⟩ := Resolved.intLike_spec hw
      split
      · next result hresult =>
        obtain ⟨hsum, hexact⟩ := binary_ok hop hm hn hresult
        refine .pure (.ofValue hexact ?_)
        rw [eval, (hl.of_value hv).1, (hr.of_value hw).1]
        exact hsum
      · exact .after (.pure hresidual)
    · exact .pure hresidual
  · exact .pure hresidual

lemma decides_eq {op : BoolOp} {r : Resolved} {v : Value} (h : r.intLike? = some v) :
    Resolve.decides op r = stops op v := by
  obtain ⟨hvalue, n, hn⟩ := Resolved.intLike_spec h
  cases op <;> simp [Resolve.decides, stops, hvalue, holds_eq_truthy hn]

/-- The operand that decides is where evaluation stops. -/
lemma deciding_spec {op : BoolOp} {es : List Expr} {rs : List Resolved}
    (h : List.Forall₂ (Agrees format) es rs) (hne : es ≠ [])
    (hint : ∀ r ∈ rs, r.intLike?.isSome) :
    ∃ e r, Resolve.deciding? op rs = some r ∧ Agrees format e r ∧
      eval format e = evalChain format op es := by
  induction h with
  | nil => contradiction
  | @cons e r es rs hr hrest ih =>
    obtain ⟨v, hv⟩ := Option.isSome_iff_exists.mp (hint r List.mem_cons_self)
    have he : eval format e = some v := (hr.of_value (Resolved.intLike_spec hv).1).1
    cases hrest with
    | nil => exact ⟨e, r, rfl, hr, by simp [evalChain, he]⟩
    | @cons e' r' es rs hr' hrest =>
      by_cases hstop : stops op v = true
      · exact ⟨e, r, by simp [Resolve.deciding?, decides_eq hv, hstop], hr,
          by simp [evalChain, he, hstop]⟩
      · obtain ⟨d, s, hs, hagrees, hd⟩ :=
          ih (by simp) fun q hq => hint q (List.mem_cons_of_mem r hq)
        have hnext : evalChain format op (e :: e' :: es) = evalChain format op (e' :: es) := by
          rw [evalChain, he]
          simp [hstop]
        exact ⟨d, s, by simp [Resolve.deciding?, decides_eq hv, hstop, hs], hagrees,
          hd.trans hnext.symm⟩

lemma evalChain_residual {op : BoolOp} {es : List Expr} {rs : List Resolved}
    (h : List.Forall₂ (Agrees format) es rs) :
    evalChain format op (rs.map Resolved.toExpr) = evalChain format op es := by
  induction h with
  | nil => rfl
  | cons hr hrest ih =>
    rw [List.map_cons, evalChain, evalChain, hr.eval_eq, ih]
    cases hrest <;> rfl

lemma closed_of_forall₂ {es : List Expr} {rs : List Resolved}
    (h : List.Forall₂ (Agrees format) es rs) : ∀ e ∈ rs.map Resolved.toExpr, Closed e := by
  induction h with
  | nil => simp
  | cons hr hrest ih =>
    intro e he
    rcases List.mem_cons.mp he with rfl | he
    · exact hr.closed
    · exact ih e he

/-- A chain is folded where all operands are integers, and then as it stops. -/
theorem chain_agrees {op : BoolOp} {es : List Expr} {rs : List Resolved} (hlen : 2 ≤ es.length)
    (h : List.Forall₂ (Agrees format) es rs) :
    Agrees format (.bool op es) (Resolve.chain op rs) := by
  unfold Resolve.chain
  split
  · next hall =>
    have hint : ∀ r ∈ rs, r.intLike?.isSome := by simpa using hall
    have hne : es ≠ [] := by
      rintro rfl
      simp at hlen
    obtain ⟨e, r, hdeciding, hagrees, heval⟩ := deciding_spec h hne hint
    rw [hdeciding]
    exact ⟨hagrees.closed, by rw [eval, ← heval]; exact hagrees.eval_eq, hagrees.value⟩
  · refine .residual (.chain ?_ (closed_of_forall₂ h)) ?_
    · simpa [h.length_eq] using hlen
    · rw [eval, eval, evalChain_residual h]

/-- Lists of known values evaluate to them. -/
lemma evalAll_of_values {es : List Expr} {rs : List Resolved} {vs : List Value}
    (h : List.Forall₂ (Agrees format) es rs) (hv : rs.mapM Resolved.value? = some vs) :
    evalAll format es = some vs ∧ ∀ v ∈ vs, Exact v := by
  induction h generalizing vs with
  | nil =>
    cases hv
    exact ⟨rfl, by simp⟩
  | cons hr hrest ih =>
    simp only [List.mapM_cons, Option.bind_eq_bind, Option.pure_def, Option.bind_eq_some_iff,
      Option.some.injEq] at hv
    obtain ⟨v, hv, ws, hws, rfl⟩ := hv
    obtain ⟨hall, hexact⟩ := ih hws
    obtain ⟨he, hv⟩ := hr.of_value hv
    refine ⟨by simp [evalAll, he, hall], ?_⟩
    simpa [hv] using hexact

lemma evalAll_residual {es : List Expr} {rs : List Resolved}
    (h : List.Forall₂ (Agrees format) es rs) :
    evalAll format (rs.map Resolved.toExpr) = evalAll format es := by
  induction h with
  | nil => rfl
  | cons hr hrest ih => rw [List.map_cons, evalAll, evalAll, hr.eval_eq, ih]

theorem list_agrees {es : List Expr} {rs : List Resolved}
    (h : List.Forall₂ (Agrees format) es rs) :
    Agrees format (.list es) (Resolve.list rs) := by
  unfold Resolve.list
  split
  · next vs hv =>
    obtain ⟨hall, hexact⟩ := evalAll_of_values h hv
    exact .ofValue (.list hexact) (by rw [eval, hall]; rfl)
  · exact .residual (.list (closed_of_forall₂ h)) (by rw [eval, eval, evalAll_residual h])

lemma evalBound_of_bound {o : Option Expr} {r : Option Resolved} {b : Option Int}
    (h : Option.Rel (Agrees format) o r) (hb : Resolve.bound? r = some b) :
    evalBound format o = some b := by
  cases h with
  | none => simpa [Resolve.bound?, evalBound] using hb
  | some hr =>
    obtain ⟨n, hn, rfl⟩ := Option.map_eq_some_iff.mp hb
    obtain ⟨v, hv, hn⟩ := Option.bind_eq_some_iff.mp hn
    simp [evalBound, (hr.of_value (Resolved.intLike_spec hv).1).1, number_of_int hn]

lemma evalBound_residual {o : Option Expr} {r : Option Resolved}
    (h : Option.Rel (Agrees format) o r) :
    evalBound format (r.map Resolved.toExpr) = evalBound format o := by
  cases h with
  | none => rfl
  | some hr => simp only [Option.map_some, evalBound, hr.eval_eq]

lemma closed_of_rel {o : Option Expr} {r : Option Resolved}
    (h : Option.Rel (Agrees format) o r) : ∀ e ∈ r.map Resolved.toExpr, Closed e := by
  cases h with
  | none => simp
  | some hr => simpa using hr.closed

/-- A slice is folded where the sequence and all bounds that are there are known. -/
theorem slice_agrees {value : Expr} {lower upper step : Option Expr} {r : Resolved}
    {l u s : Option Resolved} (hv : Agrees format value r)
    (hl : Option.Rel (Agrees format) lower l) (hu : Option.Rel (Agrees format) upper u)
    (hs : Option.Rel (Agrees format) step s) :
    Gives (Resolve.slice r l u s) (Agrees format (.subscript value (.slice lower upper step))) := by
  have hresidual : Agrees format (.subscript value (.slice lower upper step))
      (.expr (.subscript r.toExpr (.slice (l.map Resolved.toExpr) (u.map Resolved.toExpr)
        (s.map Resolved.toExpr)))) := by
    refine .residual (.slice hv.closed (closed_of_rel hl) (closed_of_rel hu) (closed_of_rel hs)) ?_
    rw [eval, eval, hv.eval_eq, evalBound_residual hl, evalBound_residual hu,
      evalBound_residual hs]
  unfold Resolve.slice
  split
  · next sequence bounds hsequence hbounds =>
    split
    · next result hresult =>
      obtain ⟨heval, hexact⟩ := hv.of_value hsequence
      unfold Resolve.bounds? at hbounds
      split at hbounds
      · next lb ub sb hlb hub hsb =>
        cases hbounds
        have hslice := slice_eq sequence ⟨lb, ub, sb⟩
        rw [hresult] at hslice
        refine .pure (.ofValue (exact_of_slice hexact hresult) ?_)
        rw [eval, heval, evalBound_of_bound hl hlb, evalBound_of_bound hu hub,
          evalBound_of_bound hs hsb]
        exact hslice
      · cases hbounds
    · exact .after (.pure hresidual)
  · exact .pure hresidual

lemma Closed.ne_slice {e : Expr} (h : Closed e) :
    ∀ lower upper step, e ≠ .slice lower upper step := by
  rintro lower upper step rfl
  cases h

lemma eval_item {value key : Expr} (hk : Closed key) :
    eval format (.subscript value key) =
      (eval format value).bind fun v => (eval format key).bind (item v) := by
  rw [eval]
  exact hk.ne_slice

/-- An item that is found in a value is the one that the evaluator gives. -/
lemma item_ok {name kname : String} {v k : Value} {ns : Namespace} {found : Mock}
    (hv : Exact v) (hk : Exact k)
    (h : Resolve.item (.value name v) (.value kname k) ns = .ok found) :
    ∃ w, item v k = some w ∧ Exact w ∧ Resolved.mock found = .ofValue w := by
  have hfound {n : Int} (hn : k.asInt? = some n)
      (hposition : Resolve.position? (.value kname k) = some k) :
      ∃ w, item v k = some w ∧ Exact w ∧ Resolved.mock found = .ofValue w := by
    simp only [Resolve.item, Mock.value?, hposition] at h
    split at h
    · next w hw =>
      have hitem : item v k = some w := by
        rw [item_eq hn (number_of_int hn), hw]
        rfl
      exact ⟨w, hitem, exact_of_item hv hitem, by rw [Resolved.ofValue, h]⟩
    · cases h
  cases hk with
  | int n => exact hfound rfl rfl
  | bool b => exact hfound rfl rfl
  | _ => simp [Resolve.item, Resolve.position?, Mock.value?, Mock.text?, asText?, Mock.getItem] at h

/-- An item is folded where the sequence and the position are known. -/
theorem subscript_agrees {value key : Expr} {r k : Resolved} (hk : Closed key)
    (hr : Agrees format value r) (hkey : Agrees format key k) :
    Gives (Resolve.subscript r k) (Agrees format (.subscript value key)) := by
  have hresidual : Agrees format (.subscript value key)
      (.expr (.subscript r.toExpr k.toExpr)) := by
    refine .residual (.item hr.closed hkey.closed) ?_
    rw [eval_item hk, eval_item hkey.closed, hr.eval_eq, hkey.eval_eq]
  unfold Resolve.subscript
  split
  · next m index =>
    refine .reading fun t => ?_
    obtain ⟨name, v, rfl, hv⟩ := hr.value m rfl
    obtain ⟨kname, w, rfl, hw⟩ := hkey.value index rfl
    split
    · next found hfound =>
      obtain ⟨u, hu, hexact, hmock⟩ := item_ok hv hw hfound
      refine .pure (hmock ▸ .ofValue hexact ?_)
      rw [eval_item hk, (hr.of_value rfl).1, (hkey.of_value rfl).1]
      exact hu
    · exact .after (.pure hresidual)
  · exact .pure hresidual

lemma option_agrees {within : Option Expansion} {o : Option Expr}
    (h : ∀ e ∈ o, Gives (Resolve.expr within e) (Agrees format e)) :
    Gives (Resolve.option within o) (Option.Rel (Agrees format) o) := by
  cases o with
  | none => exact .pure .none
  | some e =>
    rw [Resolve.option]
    exact .bind (h e rfl) fun r hr => .pure (.some hr)

lemma exprs_agree {within : Option Expansion} {es : List Expr}
    (h : ∀ e ∈ es, Gives (Resolve.expr within e) (Agrees format e)) :
    Gives (Resolve.exprs within es) (List.Forall₂ (Agrees format) es) := by
  induction es with
  | nil => exact .pure .nil
  | cons e rest ih =>
    rw [Resolve.exprs]
    refine .bind (h e List.mem_cons_self) fun r hr => ?_
    exact .bind (ih fun d hd => h d (List.mem_cons_of_mem e hd)) fun rs hrs => .pure (.cons hr hrs)

/-- Every closed expression agrees with what it resolves to. -/
theorem expr_agrees {within : Option Expansion} {e : Expr} (h : Closed e) :
    Gives (Resolve.expr within e) (Agrees format e) := by
  induction h with
  | int n => exact .pure (constant_agrees (.int n))
  | bool b => exact .pure (constant_agrees (.bool b))
  | str s => exact .pure (constant_agrees (.str s))
  | bytes b => exact .pure (constant_agrees (.bytes b))
  | list hitems ih =>
    rw [Resolve.expr]
    exact .bind (exprs_agree ih) fun rs hrs => .pure (list_agrees hrs)
  | unary hoperand ih =>
    rw [Resolve.expr]
    exact .bind ih fun r hr => unary_agrees hr
  | binary ho hleft hright ihleft ihright =>
    rw [Resolve.expr]
    exact .bind ihleft fun l hl => .bind ihright fun r hr => binary_agrees ho hl hr
  | chain hlen hvalues ih =>
    rw [Resolve.expr]
    exact .bind (exprs_agree ih) fun rs hrs => .pure (chain_agrees hlen hrs)
  | item hvalue hkey ihvalue ihkey =>
    rw [Resolve.expr_subscript hkey.ne_slice]
    exact .bind ihvalue fun r hr => .bind ihkey fun k hk => subscript_agrees hkey hr hk
  | slice hvalue hlower hupper hstep ihvalue ihlower ihupper ihstep =>
    rw [Resolve.expr]
    refine .bind ihvalue fun r hr => ?_
    refine .bind (option_agrees ihlower) fun l hl => ?_
    refine .bind (option_agrees ihupper) fun u hu => ?_
    exact .bind (option_agrees ihstep) fun s hs => slice_agrees hr hl hu hs

/-- If a closed expression is known after it is resolved, it evaluates to the value that is known;
if it stays an expression, that one evaluates alike, errors included. -/
theorem resolve_keeps_value (format : Value → Value → Option Value) (s : Session) {e : Expr}
    (h : Closed e) :
    (∀ m, (s.resolve e).1 = .mock m →
      ∃ name v, m = .value name v ∧ eval format e = some v) ∧
    ∀ r, (s.resolve e).1 = .expr r → Closed r ∧ eval format r = eval format e := by
  have hagrees : Agrees format e (s.resolve e).1 :=
    Gives.reading (fun t => expr_agrees h) s
  constructor
  · intro m hm
    obtain ⟨name, v, rfl, -⟩ := hagrees.value m hm
    exact ⟨name, v, rfl, (hagrees.of_value (by rw [hm]; rfl)).1⟩
  · intro r hr
    rw [hr] at hagrees
    exact ⟨hagrees.closed, hagrees.eval_eq⟩

/-- `[2 - -3, 0 and 1 // 0]` becomes `[5, 0 and 1 // 0]`. -/
theorem resolve_keeps_list :
    let format : Value → Value → Option Value := fun _ _ => Option.none
    let short := Expr.bool .and [.int 0, .binary (.int 1) .floorDiv (.int 0)]
    let e := Expr.list [.binary (.int 2) .sub (.unary .minus (.int 3)), short]
    let r := Expr.list [.int 5, short]
    Closed e ∧ ((Session.start .empty).resolve e).1 = .expr r ∧ Closed r ∧
      eval format r = eval format e := by
  intro format short e r
  have hshort : Closed short := by
    refine .chain (by decide) ?_
    simp only [List.forall_mem_cons]
    exact ⟨.int 0, .binary (by decide) (.int 1) (.int 0), nofun⟩
  have he : Closed e := by
    refine .list ?_
    simp only [List.forall_mem_cons]
    exact ⟨.binary (by decide) (.int 2) (.unary (.int 3)), hshort, nofun⟩
  have hr : ((Session.start .empty).resolve e).1 = .expr r := rfl
  exact ⟨he, hr, (resolve_keeps_value format (.start .empty) he).2 r hr⟩

end Unmask.Evaluation
