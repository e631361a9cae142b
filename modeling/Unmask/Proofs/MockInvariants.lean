import Unmask.Proofs.Courses

/-!
# What all mocks of a run have

Mocks come from literals, from the names that every program has, from mocks, and from the values
that they hold. What is said of mocks and is kept in these ways holds of everything that is
resolved, and of everything that is bound in the end, whatever text is run on the way.
-/
namespace Unmask

/-- A value that a mock with a property holds. -/
def Mock.Held (M : Mock → Prop) (v : Value) : Prop := ∃ m, M m ∧ m.value? = some v

/-- A property of mocks that the mocks made of them have too. -/
structure Mock.Lasting (M : Mock → Prop) : Prop where
  constant : ∀ {c : Constant} {v : Value} {m : Mock}, Value.ofConstant? c = some v →
    Mock.ofValue v = .ok m → M m
  unary : ∀ {op : UnaryOp} {v result : Value} {n : Int} {m : Mock}, v.asInt? = some n →
    v.unary op = .ok result → Mock.ofValue result = .ok m → M m
  binary : ∀ {op : BinaryOp} {v w result : Value} {k n : Int} {m : Mock}, op = .add ∨ op = .sub →
    v.asInt? = some k → w.asInt? = some n → v.binary op w = .ok result →
      Mock.ofValue result = .ok m → M m
  list : ∀ {values : List Value} {m : Mock}, (∀ v ∈ values, Mock.Held M v) →
    Mock.ofValue (.list values) = .ok m → M m
  slice : ∀ {v result : Value} {b : Value.Bounds} {m : Mock}, Mock.Held M v →
    v.slice b = .ok result → Mock.ofValue result = .ok m → M m
  index : ∀ {v position result : Value} {m : Mock}, Mock.Held M v →
    v.index position = .ok result → Mock.ofValue result = .ok m → M m
  base : ∀ {name : String} {m : Mock}, Mock.ofBaseName? name = some m → M m
  getter : ∀ {s : Scope}, M (.scope s) → M (.getter s)
  member : ∀ {object m : Mock} {attr : String}, M object → object.getAttr attr = .ok m → M m
  call : ∀ {m result : Mock} {a : Arguments}, M m → (∀ n ∈ a.positional, M n) →
    (∀ n ∈ a.named, M n.2) → m.call a = .ok (some result) → M result

/-- What was found is a mock with the property, if it is a mock. -/
def Resolved.Has (M : Mock → Prop) (r : Resolved) : Prop := ∀ m, r = .mock m → M m

/-- All names are bound to mocks with the property. -/
def Session.Binds (M : Mock → Prop) (s : Session) : Prop :=
  ∀ name m, s.names.local? name = some m → M m

namespace Resolving

variable {M : Mock → Prop} {α β : Type}

/-- Where all that is bound has the property, it is so afterwards, and the result is as said. -/
def Upholds (M : Mock → Prop) (x : Resolving α) (Q : α → Prop) : Prop :=
  ∀ s, s.Binds M → (x.run s).2.Binds M ∧ Q (x.run s).1

namespace Upholds

theorem pure {Q : α → Prop} {a : α} (h : Q a) : Upholds M (Pure.pure a) Q := fun _ hs => ⟨hs, h⟩

theorem bind {x : Resolving α} {f : α → Resolving β} {P : α → Prop} {Q : β → Prop}
    (hx : Upholds M x P) (hf : ∀ a, P a → Upholds M (f a) Q) : Upholds M (x >>= f) Q := by
  intro s hs
  obtain ⟨hnext, hP⟩ := hx s hs
  exact hf _ hP _ hnext

theorem recorded {Q : α → Prop} {a : α} (error : MockError) (node : Resolved) (h : Q a) :
    Upholds M (Resolving.record error node >>= fun _ => Pure.pure a) Q :=
  fun _ hs => ⟨hs, h⟩

/-- What is read is a session that binds such mocks. -/
theorem reading {f : Session → Resolving β} {Q : β → Prop}
    (h : ∀ s, s.Binds M → Upholds M (f s) Q) : Upholds M (get >>= f) Q :=
  fun s hs => h s hs s hs

theorem deeper {x : Resolving α} {Q : α → Prop} (h : Upholds M x Q) :
    Upholds M (Resolving.deeper x) Q :=
  fun s hs => h { s with depth := s.depth + 1, descents := s.descents ++ [s.depth + 1] } hs

theorem binding {name : String} {m : Mock} (h : M m) :
    Upholds M (Resolving.bind name m) fun _ => True := by
  refine fun s hs => ⟨fun other n hn => ?_, trivial⟩
  have hlocal : (s.names.bind name m).local? other = some n := hn
  rw [Namespace.local?_bind] at hlocal
  split at hlocal
  · cases hlocal
    exact h
  · exact hs other n hlocal

end Upholds

/-- What can be said of computations, leaving their results aside. -/
def upholding (M : Mock → Prop) : Judgement Resolving where
  Holds x _ := Upholds M x fun _ => True
  pure _ := .pure trivial
  bind hx hf := .bind hx fun a _ => hf a

end Resolving

namespace Resolve
open Resolving

variable {M : Mock → Prop} {within : Option Expansion}

lemma has_expr (e : Expr) : (Resolved.expr e).Has M := nofun

lemma has_mock {m : Mock} (h : M m) : (Resolved.mock m).Has M := by
  rintro n ⟨⟩
  exact h

lemma has_ofValue {v : Value} (h : ∀ {m : Mock}, Mock.ofValue v = .ok m → M m) :
    (Resolved.ofValue v).Has M := by
  unfold Resolved.ofValue
  split
  · next m hm => exact has_mock (h hm)
  · exact has_expr _

lemma held_of_value {r : Resolved} {v : Value} (h : r.Has M) (hv : r.value? = some v) :
    Mock.Held M v := by
  obtain ⟨name, rfl⟩ := Resolved.eq_mock_of_value hv
  cases hv
  exact ⟨_, h _ rfl, rfl⟩

lemma constant_has (hM : Mock.Lasting M) (c : Constant) : (constant c).Has M := by
  unfold constant
  split
  · exact has_expr _
  · next v _ hv => exact has_ofValue (hM.constant hv)
  · exact has_expr _

lemma get?_has (hM : Mock.Lasting M) {s : Session} (hs : s.Binds M) {name : String} {m : Mock}
    (h : s.names.get? name = some m) : M m := by
  unfold Namespace.get? at h
  rcases Option.or_eq_some_iff.mp h with hlocal | ⟨-, hbase⟩
  · exact hs name m hlocal
  · exact hM.base hbase

lemma name_has (hM : Mock.Lasting M) (id : String) : Upholds M (name id) (Resolved.Has M) := by
  unfold name
  refine .reading fun s hs => ?_
  split
  · next m hm => exact .pure (has_mock (get?_has hM hs hm))
  · exact .pure (has_expr _)

lemma unary_has (hM : Mock.Lasting M) (op : UnaryOp) (r : Resolved) :
    Upholds M (unary op r) (Resolved.Has M) := by
  unfold unary
  split
  · exact .pure (has_expr _)
  · next v hv =>
    obtain ⟨-, n, hn⟩ := Resolved.intLike_spec hv
    split
    · next result hresult => exact .pure (has_ofValue (hM.unary hn hresult))
    · exact .recorded _ _ (has_expr _)

lemma binary_has (hM : Mock.Lasting M) (l : Resolved) (op : BinaryOp) (r : Resolved) :
    Upholds M (binary l op r) (Resolved.Has M) := by
  unfold binary
  split
  · next hop =>
    have hop : op = .add ∨ op = .sub := by simpa using hop
    split
    · next v w hv hw =>
      obtain ⟨-, k, hk⟩ := Resolved.intLike_spec hv
      obtain ⟨-, n, hn⟩ := Resolved.intLike_spec hw
      split
      · next result hresult => exact .pure (has_ofValue (hM.binary hop hk hn hresult))
      · exact .recorded _ _ (has_expr _)
    · exact .pure (has_expr _)
  · exact .pure (has_expr _)

lemma chain_has (op : BoolOp) {rs : List Resolved} (h : ∀ r ∈ rs, r.Has M) :
    (chain op rs).Has M := by
  unfold chain
  split
  · cases hdeciding : deciding? op rs with
    | none => exact has_expr _
    | some r => exact h r (mem_of_deciding hdeciding)
  · exact has_expr _

lemma member_has (hM : Mock.Lasting M) {object : Resolved} (h : object.Has M) (attr : String) :
    Upholds M (member object attr) (Resolved.Has M) := by
  unfold member
  split
  · exact .pure (has_expr _)
  · next m =>
    split
    · next found hfound => exact .pure (has_mock (hM.member (h m rfl) hfound))
    · exact .recorded _ _ (has_expr _)

lemma list_has (hM : Mock.Lasting M) {rs : List Resolved} (h : ∀ r ∈ rs, r.Has M) :
    (list rs).Has M := by
  unfold list
  split
  · next values hvalues =>
    refine has_ofValue (hM.list fun v hv => ?_)
    obtain ⟨r, hr, hrv⟩ := (exists_of_mapM hvalues).2 v hv
    exact held_of_value (h r hr) hrv
  · exact has_expr _

lemma lambda_has (hM : Mock.Lasting M) (params : String) {r : Resolved} (h : r.Has M) :
    (lambda params r).Has M := by
  unfold lambda
  split
  · next scope hscope =>
    split
    · obtain ⟨m, hm, hm'⟩ := Option.bind_eq_some_iff.mp hscope
      cases r with
      | expr => contradiction
      | mock n =>
        cases hm
        cases m with
        | scope =>
          cases hm'
          exact has_mock (hM.getter (h _ rfl))
        | _ => contradiction
    · exact has_expr _
  · exact has_expr _

lemma slice_has (hM : Mock.Lasting M) {object : Resolved} (h : object.Has M)
    (lower upper step : Option Resolved) :
    Upholds M (slice object lower upper step) (Resolved.Has M) := by
  unfold slice
  split
  · next sequence bounds hsequence _ =>
    split
    · next result hresult =>
      exact .pure (has_ofValue (hM.slice (held_of_value h hsequence) hresult))
    · exact .recorded _ _ (has_expr _)
  · exact .pure (has_expr _)

lemma item_has (hM : Mock.Lasting M) {s : Session} (hs : s.Binds M) {m index found : Mock}
    (hm : M m) (h : item m index s.names = .ok found) : M found := by
  unfold item at h
  split at h
  · next sequence position hsequence _ =>
    split at h
    · next result hresult => exact hM.index ⟨m, hm, hsequence⟩ hresult h
    · contradiction
  · split at h
    · unfold Mock.getItem at h
      dsimp only at h
      split at h
      · next inner hinner =>
        cases h
        split at hinner
        · exact get?_has hM hs hinner
        · contradiction
      · contradiction
    · contradiction

lemma subscript_has (hM : Mock.Lasting M) {object : Resolved} (h : object.Has M)
    (key : Resolved) : Upholds M (subscript object key) (Resolved.Has M) := by
  unfold subscript
  split
  · next m index =>
    refine .reading fun s hs => ?_
    split
    · next found hfound => exact .pure (has_mock (item_has hM hs (h m rfl) hfound))
    · exact .recorded _ _ (has_expr _)
  · exact .pure (has_expr _)

section Calls

variable {rs : List Resolved} {named : List NamedArgument}

/-- Arguments that are known are mocks that were found. -/
lemma arguments_have {a : Arguments} (hrs : ∀ r ∈ rs, r.Has M) (hnamed : ∀ n ∈ named, n.2.Has M)
    (h : arguments? rs named = some a) : (∀ n ∈ a.positional, M n) ∧ ∀ n ∈ a.named, M n.2 := by
  obtain ⟨rfl, rfl⟩ := arguments?_eq_some.mp h
  rw [List.forall_mem_map] at hrs hnamed
  exact ⟨fun m hm => hrs m hm m rfl, fun n hn => hnamed n hn n.2 rfl⟩

/-- A lasting property that expansions of expressions find of mocks too. -/
structure Expands (M : Mock → Prop) (within : Option Expansion) : Prop where
  lasting : Mock.Lasting M
  expr : ∀ x ∈ within, ∀ e, Upholds M (deeper (x.expr e)) (Resolved.Has M)

lemma callEval_has (h : Expands M within) (source : String) (callee : Resolved) (residual : Expr) :
    Upholds M (callEval within source callee residual) (Resolved.Has M) := by
  have hexpand : Upholds M (expandEval within source) fun r => ∀ a, r = .ok a → a.Has M := by
    unfold expandEval
    split
    · exact .pure nofun
    · next x =>
      split
      · exact .pure nofun
      · refine .bind (h.expr x rfl _) fun r hr => .pure ?_
        rintro a ⟨⟩
        exact hr
  unfold callEval
  refine .bind hexpand fun r hr => ?_
  split
  · exact .pure (hr _ rfl)
  · exact .recorded _ _ (has_expr _)

lemma call_has (h : Expands M within) {callee : Resolved}
    (hcallee : callee.Has M) (hrs : ∀ r ∈ rs, r.Has M) (hnamed : ∀ n ∈ named, n.2.Has M) :
    Upholds M (call within callee rs named) (Resolved.Has M) := by
  unfold call
  split
  · exact .pure (has_expr _)
  · next m =>
    dsimp only
    split
    · exact callEval_has h _ _ _
    · split
      · exact .recorded _ _ (has_expr _)
      · split
        · next a ha =>
          obtain ⟨hpositional, hkeywords⟩ := arguments_have hrs hnamed ha
          unfold callKnown
          split
          · next result hresult =>
            exact .pure (has_mock (h.lasting.call (hcallee m rfl) hpositional hkeywords hresult))
          · exact .pure (has_expr _)
          · exact .recorded _ _ (has_expr _)
        · exact .pure (has_expr _)

end Calls

section Expressions

mutual

/-- Every expression is found to be a mock with the property, if it is found to be a mock. -/
theorem expr_has (h : Expands M within) (e : Expr) :
    Upholds M (expr within e) (Resolved.Has M) := by
  cases e with
  | constant c => exact .pure (constant_has h.lasting c)
  | name id => exact name_has h.lasting id
  | subscript value key =>
    cases key with
    | slice lower upper step =>
      rw [expr]
      have ihvalue := expr_has h value
      have ihlower := option_has h lower
      have ihupper := option_has h upper
      have ihstep := option_has h step
      exact .bind ihvalue fun _ hvalue => .bind ihlower fun _ _ => .bind ihupper fun _ _ =>
        .bind ihstep fun _ _ => slice_has h.lasting hvalue _ _ _
    | _ =>
      have ihvalue := expr_has h value
      rw [expr_subscript]
      · exact .bind ihvalue fun _ hvalue => .bind (expr_has h _) fun _ _ =>
          subscript_has h.lasting hvalue _
      · nofun
  | unary op operand =>
    rw [expr]
    have ihoperand := expr_has h operand
    exact .bind ihoperand fun _ _ => unary_has h.lasting _ _
  | binary left op right =>
    rw [expr]
    have ihleft := expr_has h left
    have ihright := expr_has h right
    exact .bind ihleft fun _ _ => .bind ihright fun _ _ => binary_has h.lasting _ _ _
  | bool op values =>
    rw [expr]
    have ihvalues := exprs_has h values
    exact .bind ihvalues fun _ hvalues => .pure (chain_has op hvalues)
  | «attribute» value attr =>
    rw [expr]
    have ihvalue := expr_has h value
    exact .bind ihvalue fun _ hvalue => member_has h.lasting hvalue _
  | call func args keywords =>
    rw [expr]
    have ihfunc := expr_has h func
    have ihargs := exprs_has h args
    have ihkeywords := namedArguments_has h keywords
    exact .bind ihfunc fun _ hfunc => .bind ihargs fun _ hargs =>
      .bind ihkeywords fun _ hkeywords => call_has h hfunc hargs hkeywords
  | list items =>
    rw [expr]
    have ihitems := exprs_has h items
    exact .bind ihitems fun _ hitems => .pure (list_has h.lasting hitems)
  | tuple items | «set» items =>
    rw [expr]
    have ihitems := exprs_has h items
    exact .bind ihitems fun _ _ => .pure (has_expr _)
  | lambda params body =>
    rw [expr]
    have ihbody := expr_has h body
    exact .bind ihbody fun _ hbody => .pure (lambda_has h.lasting params hbody)
  | slice lower upper step =>
    rw [expr]
    have ihlower := option_has h lower
    have ihupper := option_has h upper
    have ihstep := option_has h step
    exact .bind ihlower fun _ _ => .bind ihupper fun _ _ => .bind ihstep fun _ _ =>
      .pure (has_expr _)
  | compare left ops comparators =>
    rw [expr]
    have ihleft := expr_has h left
    have ihcomparators := exprs_has h comparators
    exact .bind ihleft fun _ _ => .bind ihcomparators fun _ _ => .pure (has_expr _)
  | conditional test body orelse =>
    rw [expr]
    have ihtest := expr_has h test
    have ihbody := expr_has h body
    have ihorelse := expr_has h orelse
    exact .bind ihtest fun _ _ => .bind ihbody fun _ _ => .bind ihorelse fun _ _ =>
      .pure (has_expr _)
  | named _ value | starred value | await value =>
    rw [expr]
    have ihvalue := expr_has h value
    exact .bind ihvalue fun _ _ => .pure (has_expr _)
  | dict keys values =>
    rw [expr]
    have ihkeys := options_has h keys
    have ihvalues := exprs_has h values
    exact .bind ihkeys fun _ _ => .bind ihvalues fun _ _ => .pure (has_expr _)
  | listComp elt generators | setComp elt generators | generator elt generators =>
    rw [expr]
    have ihgenerators := comprehensions_has h generators
    have ihelt := expr_has h elt
    exact .bind ihgenerators fun _ _ => .bind ihelt fun _ _ => .pure (has_expr _)
  | dictComp key value generators =>
    rw [expr]
    have ihgenerators := comprehensions_has h generators
    have ihkey := expr_has h key
    have ihvalue := expr_has h value
    exact .bind ihgenerators fun _ _ => .bind ihkey fun _ _ => .bind ihvalue fun _ _ =>
      .pure (has_expr _)
  | verbatim text =>
    rw [expr]
    exact .pure (has_expr _)

theorem option_has (h : Expands M within) (o : Option Expr) :
    Upholds M (option within o) fun _ => True := by
  cases o with
  | none => exact .pure trivial
  | some e =>
    rw [option]
    exact .bind (expr_has h e) fun _ _ => .pure trivial

theorem options_has (h : Expands M within) (os : List (Option Expr)) :
    Upholds M (options within os) fun _ => True := by
  cases os with
  | nil => exact .pure trivial
  | cons o rest =>
    rw [options]
    exact .bind (option_has h o) fun _ _ => .bind (options_has h rest) fun _ _ => .pure trivial

theorem exprs_has (h : Expands M within) (es : List Expr) :
    Upholds M (exprs within es) fun rs => ∀ r ∈ rs, r.Has M := by
  cases es with
  | nil => exact .pure nofun
  | cons e rest =>
    rw [exprs]
    exact .bind (expr_has h e) fun _ he => .bind (exprs_has h rest) fun _ hrest =>
      .pure (List.forall_mem_cons.mpr ⟨he, hrest⟩)

theorem namedArgument_has (h : Expands M within) (k : Keyword) :
    Upholds M (namedArgument within k) fun a => a.2.Has M := by
  obtain ⟨arg, value⟩ := k
  rw [namedArgument]
  exact .bind (expr_has h value) fun _ hvalue => .pure hvalue

theorem namedArguments_has (h : Expands M within) (ks : List Keyword) :
    Upholds M (namedArguments within ks) fun named => ∀ a ∈ named, a.2.Has M := by
  cases ks with
  | nil => exact .pure nofun
  | cons k rest =>
    rw [namedArguments]
    exact .bind (namedArgument_has h k) fun _ hk => .bind (namedArguments_has h rest) fun _ hrest =>
      .pure (List.forall_mem_cons.mpr ⟨hk, hrest⟩)

theorem target_has (h : Expands M within) (goal : Expr) :
    Upholds M (target within goal) fun _ => True := by
  cases goal with
  | tuple items | list items =>
    rw [target]
    exact .bind (targets_has h items) fun _ _ => .pure trivial
  | starred value =>
    rw [target]
    exact .bind (target_has h value) fun _ _ => .pure trivial
  | subscript value slice =>
    rw [target]
    exact .bind (expr_has h value) fun _ _ => .bind (expr_has h slice) fun _ _ => .pure trivial
  | «attribute» value attr =>
    rw [target]
    exact .bind (expr_has h value) fun _ _ => .pure trivial
  | _ => exact .pure trivial

theorem targets_has (h : Expands M within) (goals : List Expr) :
    Upholds M (targets within goals) fun _ => True := by
  cases goals with
  | nil => exact .pure trivial
  | cons goal rest =>
    rw [targets]
    exact .bind (target_has h goal) fun _ _ => .bind (targets_has h rest) fun _ _ => .pure trivial

theorem comprehension_has (h : Expands M within) (g : Comprehension) :
    Upholds M (comprehension within g) fun _ => True := by
  obtain ⟨goal, iter, ifs, isAsync⟩ := g
  rw [comprehension]
  exact .bind (expr_has h iter) fun _ _ => .bind (target_has h goal) fun _ _ =>
    .bind (exprs_has h ifs) fun _ _ => .pure trivial

theorem comprehensions_has (h : Expands M within) (gs : List Comprehension) :
    Upholds M (comprehensions within gs) fun _ => True := by
  cases gs with
  | nil => exact .pure trivial
  | cons g rest =>
    rw [comprehensions]
    exact .bind (comprehension_has h g) fun _ _ => .bind (comprehensions_has h rest) fun _ _ =>
      .pure trivial

end

end Expressions

section Programs

/-- A lasting property that expansions of programs keep too. -/
structure Runs (M : Mock → Prop) (within : Option Expansion) : Prop extends Expands M within where
  body : ∀ x ∈ within, ∀ m, Upholds M (deeper (x.body m)) fun _ => True

variable (h : Runs M within)
include h

lemma onExpr_upholds (e : Expr) : Upholds M ((fold within).onExpr e) fun _ => True := by
  rw [onExpr_fold]
  exact .bind (expr_has h.toExpands e) fun _ _ => .pure trivial

lemma assignStatement_upholds (goal value : Expr) :
    Upholds M (assignStatement within goal value) fun _ => True := by
  have hE := h.toExpands
  unfold assignStatement
  refine .bind (expr_has hE value) fun stored hstored => ?_
  split
  · next container key =>
    refine .bind (expr_has hE container) fun c _ => .bind (expr_has hE key) fun k _ => ?_
    split
    · next name m hbinding =>
      obtain ⟨-, -, rfl⟩ := binding?_spec hbinding
      exact .bind (.binding (hstored m rfl)) fun _ _ => .pure trivial
    · exact .pure trivial
  · exact .bind (target_has hE goal) fun _ _ => .pure trivial

lemma expandExec_upholds (source : String) :
    Upholds M (expandExec within source) fun _ => True := by
  unfold expandExec
  split
  · exact .pure trivial
  · next x =>
    split
    · exact .pure trivial
    · exact .bind (h.body x rfl _) fun _ _ => .pure trivial

lemma callStatement_upholds (func : Expr) (args : List Expr) (keywords : List Keyword) :
    Upholds M (callStatement within func args keywords) fun _ => True := by
  have hE := h.toExpands
  unfold callStatement
  refine .bind (expr_has hE func) fun callee hcallee => .bind (exprs_has hE args) fun rs hrs =>
    .bind (namedArguments_has hE keywords) fun named hnamed => ?_
  split
  · exact .bind (call_has hE hcallee hrs hnamed) fun _ _ => .pure trivial
  · refine .bind (expandExec_upholds h _) fun r _ => ?_
    split
    · exact .pure trivial
    · exact .recorded _ _ trivial

/-- The walk through a program does not look at calls here. -/
lemma fold_upholds :
    (fold within).Keeps (upholding M).thread (fun _ _ => ()) "" fun _ e => e where
  expr _ := onExpr_upholds h
  stmt _ s walk hwalk := by
    have hsingle : Upholds M (do return [← walk]) fun _ => True :=
      .bind (P := fun _ => True) hwalk fun _ _ => .pure trivial
    simp only [fold]
    split
    · exact callStatement_upholds h _ _ _
    · exact assignStatement_upholds h _ _
    · exact hsingle
  afterStmt _ _ _ hs := hs
  afterBody _ _ _ hbody := hbody

/-- Programs keep to such mocks. -/
theorem onBody_upholds (m : List Stmt) : Upholds M ((fold within).onBody m) fun _ => True :=
  (fold_upholds h).onBody () m

end Programs

/-- A lasting property holds wherever so many texts can be run within each other. -/
theorem runs (hM : Mock.Lasting M) (n : Nat) : Runs M (expansion n) := by
  induction n with
  | zero => exact ⟨⟨hM, nofun⟩, nofun⟩
  | succ n ih =>
    refine ⟨⟨hM, ?_⟩, ?_⟩
    · rintro x ⟨⟩ e
      exact .deeper (expr_has ih.toExpands e)
    · rintro x ⟨⟩ m
      exact .deeper (onBody_upholds ih m)

end Resolve

namespace Session
open Resolve

variable {M : Mock → Prop} {s : Session}

/-- What is resolved has the property, and all that is bound has it. -/
theorem resolve_has (hM : Mock.Lasting M) (hs : s.Binds M) (e : Expr) :
    (s.resolve e).2.Binds M ∧ (s.resolve e).1.Has M := by
  rw [resolve_eq_run]
  exact expr_has (runs hM _).toExpands e s hs

/-- All that is bound behind a program has the property. -/
theorem transform_binds (hM : Mock.Lasting M) (hs : s.Binds M) (m : Module) :
    (s.transform m).2.Binds M := by
  rw [transform_eq_run]
  exact (onBody_upholds (runs hM _) m s hs).1

end Session
end Unmask
