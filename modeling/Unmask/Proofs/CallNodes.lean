import Mathlib.Data.List.Forall2
import Unmask.Proofs.QuietRuns

/-!
# Calls in single nodes

Each node keeps the calls of a foreign name if its parts keep them. A node becomes known only when
all of its parts are known, and then none of them has a call of the name.
-/
namespace Unmask.Resolve
open Resolving

variable {id : String} {s t : Session} {ns : Namespace} {becomes : Expr → Expr}

/-- What an expression resolves to has the calls of the expression, folded, none if it is known, and
is the foreign name only if the expression is. -/
structure Kept (id : String) (becomes : Expr → Expr) (e : Expr) (r : Resolved) : Prop where
  alike : Alike becomes (e.sites id) (r.toExpr.sites id)
  known : ∀ m, r = .mock m → e.sites id = [] ∧ m ≠ .unknown id
  callee : r.toExpr = .name id ↔ e = .name id

/-- An expression resolves to what it becomes and keeps its calls. -/
structure Found (id : String) (becomes : Expr → Expr) (e : Expr) (r : Resolved) : Prop
    extends Kept id becomes e r where
  eq : r.toExpr = becomes e

lemma Kept.residual {e e' : Expr} (h : Alike becomes (e.sites id) (e'.sites id))
    (he : e ≠ .name id) (he' : e' ≠ .name id) : Kept id becomes e (.expr e') :=
  ⟨h, fun _ => nofun, iff_of_false he' he⟩

lemma Kept.mock (hid : Foreign id) {e : Expr} {m : Mock} (h : e.sites id = [])
    (hm : m ≠ .unknown id) (he : e ≠ .name id) : Kept id becomes e (.mock m) := by
  refine ⟨?_, fun n hn => ?_, iff_of_false (hid.revert_ne hm) he⟩
  · rw [h, Resolved.toExpr, hid.revert_sites]
    exact .nil
  · cases hn
    exact ⟨h, hm⟩

lemma Kept.ofValue (hid : Foreign id) {e : Expr} {v : Value} (h : e.sites id = [])
    (he : e ≠ .name id) : Kept id becomes e (.ofValue v) := by
  unfold Resolved.ofValue
  split
  · next m hm => exact .mock hid h (Mock.known_ofValue hm id) he
  · refine .residual ?_ he nofun
    rw [h]
    exact .nil

lemma Found.sites_of_value {e : Expr} {r : Resolved} {v : Value} (h : Found id becomes e r)
    (hv : r.value? = some v) : e.sites id = [] := by
  obtain ⟨name, hr⟩ := Resolved.eq_mock_of_value hv
  exact (h.known _ hr).1

lemma Found.sites_of_intLike {e : Expr} {r : Resolved} (h : Found id becomes e r)
    (hr : r.intLike?.isSome) : e.sites id = [] := by
  obtain ⟨name, v, rfl⟩ := Resolved.eq_mock_of_intLike hr
  exact (h.known _ rfl).1

lemma constant_kept (hid : Foreign id) (c : Constant) :
    Kept id becomes (.constant c) (constant c) := by
  unfold constant
  split
  · exact .residual .nil nofun nofun
  · exact .ofValue hid rfl nofun
  · exact .residual .nil nofun nofun

/-- On the way the foreign name refers to nothing. -/
lemma Quiet.get?_eq_none (h : Quiet id s t) {u : Session} (ht : u.Grown t) :
    u.names.get? id = none := by
  have hlocal : u.names.local? id = none := by
    by_contra hsome
    have hlast := ht.isSome_local? (Option.isSome_iff_ne_none.mpr hsome)
    rw [h.unbound] at hlast
    contradiction
  rw [Namespace.get?, hlocal, h.foreign.base]
  rfl

lemma Reached.get?_ne {u : Session} (hu : Reached id s ns u) {name : String} {m : Mock}
    (hm : u.names.get? name = some m) : m ≠ .unknown id := by
  unfold Namespace.get? at hm
  rcases Option.or_eq_some_iff.mp hm with hlocal | ⟨-, hbase⟩
  · rintro rfl
    exact hu.spared name (hu.names ▸ hlocal)
  · exact Mock.known_ofBaseName? hbase id

lemma name_kept (h : Quiet id s t) (name : String) :
    (reading id s t ns).Holds (Resolve.name name) (Kept id becomes (.name name)) := by
  unfold Resolve.name
  refine Reading.get fun u => ?_
  split
  · next m hm =>
    refine (reading id s t ns).pure fun hu ht => .mock h.foreign rfl (hu.get?_ne hm) ?_
    rintro ⟨⟩
    rw [h.get?_eq_none ht] at hm
    contradiction
  · exact (reading id s t ns).pure fun _ _ => ⟨.nil, fun _ => nofun, Iff.rfl⟩

lemma unary_kept (hid : Foreign id) (op : UnaryOp) (operand : Expr) (r : Resolved) :
    (reading id s t ns).Holds (Resolve.unary op r) fun b =>
      Found id becomes operand r → Kept id becomes (.unary op operand) b := by
  have hresidual (h : Found id becomes operand r) :
      Kept id becomes (.unary op operand) (.expr (.unary op r.toExpr)) :=
    .residual h.alike nofun nofun
  unfold Resolve.unary
  split
  · exact (reading id s t ns).pure hresidual
  · next v hv =>
    split
    · refine (reading id s t ns).pure fun h => .ofValue hid ?_ nofun
      exact h.sites_of_intLike (by rw [hv]; rfl)
    · exact Reading.record _ _ hresidual

lemma binary_kept (hid : Foreign id) (left : Expr) (op : BinaryOp) (right : Expr)
    (l r : Resolved) :
    (reading id s t ns).Holds (Resolve.binary l op r) fun b =>
      Found id becomes right r → Found id becomes left l →
        Kept id becomes (.binary left op right) b := by
  have hresidual (hr : Found id becomes right r) (hl : Found id becomes left l) :
      Kept id becomes (.binary left op right) (.expr (.binary l.toExpr op r.toExpr)) :=
    .residual (hl.alike.append hr.alike) nofun nofun
  unfold Resolve.binary
  split
  · split
    · next v w hv hw =>
      split
      · refine (reading id s t ns).pure fun hr hl => .ofValue hid ?_ nofun
        rw [Expr.sites, hl.sites_of_intLike (by rw [hv]; rfl),
          hr.sites_of_intLike (by rw [hw]; rfl)]
        rfl
      · exact Reading.record _ _ hresidual
    · exact (reading id s t ns).pure hresidual
  · exact (reading id s t ns).pure hresidual

lemma member_kept (hid : Foreign id) (value : Expr) (object : Resolved) (attr : String) :
    (reading id s t ns).Holds (Resolve.member object attr) fun b =>
      Found id becomes value object → Kept id becomes (.attribute value attr) b := by
  have hresidual (h : Found id becomes value object) :
      Kept id becomes (.attribute value attr) (.expr (.attribute object.toExpr attr)) :=
    .residual h.alike nofun nofun
  unfold Resolve.member
  split
  · exact (reading id s t ns).pure hresidual
  · next m =>
    split
    · next found hfound =>
      exact (reading id s t ns).pure fun h =>
        .mock hid (h.known m rfl).1 (Mock.known_getAttr hfound id) nofun
    · exact Reading.record _ _ hresidual

lemma lambda_kept (hid : Foreign id) (params : String) {body : Expr} {r : Resolved}
    (h : Found id becomes body r) : Kept id becomes (.lambda params body) (lambda params r) := by
  have hresidual : Kept id becomes (.lambda params body) (.expr (.lambda params r.toExpr)) :=
    .residual h.alike nofun nofun
  unfold lambda
  split
  · next scope hscope =>
    split
    · cases r with
      | expr e => contradiction
      | mock m => exact .mock hid (h.known m rfl).1 nofun nofun
    · exact hresidual
  · exact hresidual

section Rows

variable {es : List Expr} {rs : List Resolved}

lemma sitesList_alike (h : List.Forall₂ (Found id becomes) es rs) :
    Alike becomes (Expr.sitesList id es) (Expr.sitesList id (rs.map Resolved.toExpr)) := by
  induction h with
  | nil => exact .nil
  | cons h _ ih => exact h.alike.append ih

lemma exprs_eq (h : List.Forall₂ (Found id becomes) es rs) :
    rs.map Resolved.toExpr = es.map becomes := by
  induction h with
  | nil => rfl
  | cons h _ ih => rw [List.map_cons, List.map_cons, h.eq, ih]

/-- Expressions that are all known have no calls of the name. -/
lemma sitesList_of_mocks (h : List.Forall₂ (Found id becomes) es rs)
    (hrs : ∀ r ∈ rs, ∃ m, r = .mock m) : Expr.sitesList id es = [] := by
  induction h with
  | nil => rfl
  | cons h _ ih =>
    obtain ⟨m, hm⟩ := hrs _ List.mem_cons_self
    rw [Expr.sitesList, (h.known m hm).1, ih fun r hr => hrs r (List.mem_cons_of_mem _ hr)]
    rfl

lemma list_kept (hid : Foreign id) (h : List.Forall₂ (Found id becomes) es rs) :
    Kept id becomes (.list es) (list rs) := by
  unfold list
  split
  · next values hvalues =>
    refine .ofValue hid (sitesList_of_mocks h fun r hr => ?_) nofun
    obtain ⟨v, hv⟩ := (exists_of_mapM hvalues).1 r hr
    obtain ⟨name, hmock⟩ := Resolved.eq_mock_of_value hv
    exact ⟨_, hmock⟩
  · exact .residual (sitesList_alike h) nofun nofun

/-- A chain is known only if all of its operands are, also those that do not count. -/
lemma chain_kept (hid : Foreign id) (op : BoolOp) (h : List.Forall₂ (Found id becomes) es rs) :
    Kept id becomes (.bool op es) (chain op rs) := by
  unfold chain
  split
  · next hall =>
    have hmocks : ∀ r ∈ rs, ∃ name v, r = .mock (.value name v) := fun r hr =>
      Resolved.eq_mock_of_intLike (List.all_eq_true.mp hall r hr)
    have hsites : Expr.sitesList id es = [] := by
      refine sitesList_of_mocks h fun r hr => ?_
      obtain ⟨name, v, hv⟩ := hmocks r hr
      exact ⟨_, hv⟩
    cases hdeciding : deciding? op rs with
    | none =>
      refine .residual ?_ nofun nofun
      rw [Expr.sites, hsites]
      exact .nil
    | some r =>
      obtain ⟨name, v, rfl⟩ := hmocks r (mem_of_deciding hdeciding)
      exact .mock hid hsites nofun nofun
  · exact .residual (sitesList_alike h) nofun nofun

end Rows

lemma sitesOption_alike {o : Option Expr} {r : Option Resolved}
    (h : Option.Rel (Found id becomes) o r) :
    Alike becomes (Expr.sitesOption id o) (Expr.sitesOption id (r.map Resolved.toExpr)) := by
  cases h with
  | none => exact .nil
  | some h => exact h.alike

lemma sitesOption_of_bound {o : Option Expr} {r : Option Resolved} {b : Option Int}
    (h : Option.Rel (Found id becomes) o r) (hb : bound? r = some b) :
    Expr.sitesOption id o = [] := by
  cases h with
  | none => rfl
  | some h =>
    obtain ⟨v, hv⟩ := intLike_of_bound hb
    exact h.sites_of_intLike (by rw [hv]; rfl)

lemma slice_kept (hid : Foreign id) (value : Expr) (lower upper step : Option Expr)
    (object : Resolved) (l u d : Option Resolved) :
    (reading id s t ns).Holds (Resolve.slice object l u d) fun b =>
      Option.Rel (Found id becomes) step d → Option.Rel (Found id becomes) upper u →
        Option.Rel (Found id becomes) lower l → Found id becomes value object →
          Kept id becomes (.subscript value (.slice lower upper step)) b := by
  have hresidual (hd : Option.Rel (Found id becomes) step d)
      (hu : Option.Rel (Found id becomes) upper u) (hl : Option.Rel (Found id becomes) lower l)
      (hobject : Found id becomes value object) :
      Kept id becomes (.subscript value (.slice lower upper step))
        (.expr (.subscript object.toExpr (.slice (l.map Resolved.toExpr) (u.map Resolved.toExpr)
          (d.map Resolved.toExpr)))) := by
    refine .residual (hobject.alike.append ?_) nofun nofun
    exact ((sitesOption_alike hl).append (sitesOption_alike hu)).append (sitesOption_alike hd)
  unfold Resolve.slice
  split
  · next sequence bounds hsequence hbounds =>
    split
    · refine (reading id s t ns).pure fun hd hu hl hobject => .ofValue hid ?_ nofun
      obtain ⟨⟨_, hlower⟩, ⟨_, hupper⟩, _, hstep⟩ := exists_of_bounds hbounds
      rw [Expr.sites, Expr.sites, hobject.sites_of_value hsequence,
        sitesOption_of_bound hl hlower, sitesOption_of_bound hu hupper,
        sitesOption_of_bound hd hstep]
      rfl
    · exact Reading.record _ _ hresidual
  · exact (reading id s t ns).pure hresidual

/-- An item is known, or it is what a name is bound to. -/
lemma Reached.item_ne {u : Session} (hu : Reached id s ns u) {m index found : Mock}
    (h : item m index u.names = .ok found) : found ≠ .unknown id := by
  unfold item at h
  split at h
  · split at h
    · exact Mock.known_ofValue h id
    · contradiction
  · split at h
    · next key _ =>
      unfold Mock.getItem at h
      dsimp only at h
      split at h
      · next inner hinner =>
        cases h
        split at hinner
        · exact hu.get?_ne hinner
        · contradiction
      · contradiction
    · contradiction

lemma subscript_kept (hid : Foreign id) (value key : Expr) (object k : Resolved) :
    (reading id s t ns).Holds (Resolve.subscript object k) fun b =>
      Found id becomes key k → Found id becomes value object →
        Kept id becomes (.subscript value key) b := by
  have hresidual (hk : Found id becomes key k) (hobject : Found id becomes value object) :
      Kept id becomes (.subscript value key) (.expr (.subscript object.toExpr k.toExpr)) :=
    .residual (hobject.alike.append hk.alike) nofun nofun
  unfold Resolve.subscript
  split
  · next m index =>
    refine Reading.get fun u => ?_
    split
    · next found hfound =>
      refine (reading id s t ns).pure fun hu _ hk hobject => ?_
      refine .mock hid ?_ (hu.item_ne hfound) nofun
      rw [Expr.sites, (hobject.known m rfl).1, (hk.known index rfl).1]
      rfl
    · exact Reading.record _ _ fun _ _ => hresidual
  · exact (reading id s t ns).pure hresidual

/-- A keyword argument is found under its name. -/
def FoundKeyword (id : String) (becomes : Expr → Expr) (k : Keyword) (a : NamedArgument) : Prop :=
  a.1 = k.arg ∧ Found id becomes k.value a.2

section Calls

variable {func : Expr} {args : List Expr} {keywords : List Keyword} {callee : Resolved}
  {rs : List Resolved} {named : List NamedArgument}

lemma keywords_alike (h : List.Forall₂ (FoundKeyword id becomes) keywords named) :
    Alike becomes (Keyword.sitesList id keywords) (Keyword.sitesList id (named.map keyword)) := by
  induction h with
  | nil => exact .nil
  | @cons k a _ _ h _ ih =>
    obtain ⟨_, value⟩ := k
    exact h.2.alike.append ih

lemma keywords_eq (h : List.Forall₂ (FoundKeyword id becomes) keywords named) :
    named.map keyword = keywords.map fun k => ⟨k.arg, becomes k.value⟩ := by
  induction h with
  | nil => rfl
  | cons h _ ih => rw [List.map_cons, List.map_cons, ih, keyword, h.1, h.2.eq]

lemma keywords_of_mocks (h : List.Forall₂ (FoundKeyword id becomes) keywords named)
    (hnamed : ∀ a ∈ named, ∃ m, a.2 = .mock m) : Keyword.sitesList id keywords = [] := by
  induction h with
  | nil => rfl
  | @cons k a _ _ h _ ih =>
    obtain ⟨_, value⟩ := k
    obtain ⟨m, hm⟩ := hnamed a List.mem_cons_self
    rw [Keyword.sitesList, Keyword.sites, (h.2.known m hm).1,
      ih fun a ha => hnamed a (List.mem_cons_of_mem _ ha)]
    rfl

/-- The parts of a call are found. -/
structure FoundCall (id : String) (becomes : Expr → Expr) (func : Expr) (args : List Expr)
    (keywords : List Keyword) (callee : Resolved) (rs : List Resolved)
    (named : List NamedArgument) : Prop where
  callee : Found id becomes func callee
  args : List.Forall₂ (Found id becomes) args rs
  named : List.Forall₂ (FoundKeyword id becomes) keywords named

/-- A call that is rebuilt is a call of the name if it was one, with its arguments folded. -/
lemma FoundCall.residual (h : FoundCall id becomes func args keywords callee rs named) :
    Kept id becomes (.call func args keywords) (.expr (residualCall callee rs named)) := by
  have hparts := (h.callee.alike.append (sitesList_alike h.args)).append (keywords_alike h.named)
  refine .residual (Alike.append ?_ hparts) nofun nofun
  rw [exprs_eq h.args, keywords_eq h.named]
  exact Alike.site h.callee.callee

/-- A call of something known with known arguments has no calls of the name in it. -/
lemma FoundCall.sites_of_mocks {m : Mock}
    (h : FoundCall id becomes func args keywords (.mock m) rs named)
    (hrs : ∀ r ∈ rs, ∃ m, r = .mock m) (hnamed : ∀ a ∈ named, ∃ m, a.2 = .mock m)
    (hid : Foreign id) : (Expr.call func args keywords).sites id = [] := by
  obtain ⟨hsites, hm⟩ := h.callee.known m rfl
  have hfunc : func ≠ .name id := mt h.callee.callee.mpr (hid.revert_ne hm)
  rw [Expr.sites, siteOf, if_neg (mt isCallOf_iff.mp hfunc), hsites,
    sitesList_of_mocks h.args hrs, keywords_of_mocks h.named hnamed]
  rfl

lemma callKnown_kept (hid : Foreign id) (m : Mock) (a : Arguments) (callee : Resolved) {e : Expr}
    {residual : Expr} (he : e ≠ .name id) :
    (reading id s t ns).Holds (callKnown m a callee residual) fun b =>
      e.sites id = [] → Kept id becomes e (.expr residual) → Kept id becomes e b := by
  unfold callKnown
  split
  · next result hresult =>
    exact (reading id s t ns).pure fun hsites _ =>
      .mock hid hsites (Mock.known_call hresult id) he
  · exact (reading id s t ns).pure fun _ hresidual => hresidual
  · exact Reading.record _ _ fun _ hresidual => hresidual

lemma expansion_stays {n : Nat} {x : Expansion} (h : expansion n = some x) (e : Expr) :
    Along Stays (x.expr e) := by
  cases n with
  | zero => contradiction
  | succ n =>
    cases h
    exact expr_holds (followed_stays n) e

/-- Where no text is begun, `eval` comes to nothing. -/
lemma expandEval_fails (h : Quiet id s t) (source : String) :
    (reading id s t ns).Holds (expandEval (within s) source) fun r =>
      ∃ error, r = .error error := by
  unfold expandEval
  split
  · exact (reading id s t ns).pure ⟨_, rfl⟩
  · next x hx =>
    split
    · exact (reading id s t ns).pure ⟨_, rfl⟩
    · refine (reading id s t ns).bind
        (Reading.not_deeper (Q := fun _ => False) h (expansion_stays hx _)) fun r => ?_
      exact (reading id s t ns).pure False.elim

lemma callEval_kept (h : Quiet id s t) (source : String) (callee : Resolved) {e residual : Expr} :
    (reading id s t ns).Holds (callEval (within s) source callee residual) fun b =>
      Kept id becomes e (.expr residual) → Kept id becomes e b := by
  unfold callEval
  refine (reading id s t ns).bind (expandEval_fails h source) fun r => ?_
  split
  · refine (reading id s t ns).pure ?_
    rintro ⟨error, ⟨⟩⟩
  · exact Reading.record _ _ fun _ hresidual => hresidual

/-- A call keeps the calls of the name that its parts have, and itself if it is one. -/
lemma call_kept (h : Quiet id s t) (func : Expr) (args : List Expr) (keywords : List Keyword) :
    (reading id s t ns).Holds (Resolve.call (within s) callee rs named) fun b =>
      FoundCall id becomes func args keywords callee rs named →
        Kept id becomes (.call func args keywords) b := by
  unfold Resolve.call
  split
  · exact (reading id s t ns).pure FoundCall.residual
  · next m =>
    dsimp only
    split
    · exact Reading.imp (callEval_kept h _ _) fun b hb hfound => hb hfound.residual
    · split
      · exact Reading.record _ _ FoundCall.residual
      · split
        · next a ha =>
          obtain ⟨rfl, rfl⟩ := arguments?_eq_some.mp ha
          have hcall : Expr.call func args keywords ≠ .name id := nofun
          exact Reading.imp (callKnown_kept h.foreign m a _ hcall) fun b hb hfound =>
            hb (hfound.sites_of_mocks (List.forall_mem_map.mpr fun m _ => ⟨m, rfl⟩)
              (List.forall_mem_map.mpr fun n _ => ⟨n.2, rfl⟩) h.foreign) hfound.residual
        · exact (reading id s t ns).pure FoundCall.residual

end Calls

end Unmask.Resolve
