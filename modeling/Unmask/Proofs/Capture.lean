import Unmask.Proofs.BoundNames
import Unmask.Proofs.Nesting

/-!
# Names that are captured

Resolving and cleaning know of no scopes: they replace a name wherever it is read, also where a
comprehension or a lambda around it binds the name. So a bound name stays, at its place in
whatever it stands, if and only if the session has nothing for it. Then every expression around
the name stays an expression, with its parts in their places: only what is known as a whole is
computed, and what the name is in is not.
-/
namespace Unmask

namespace Resolving

variable {α β : Type} {ns : Namespace}

/-- With some names bound, which stay so, a result is as said. -/
def Under (ns : Namespace) (x : Resolving α) (Q : α → Prop) : Prop :=
  ∀ s, s.names = ns → (x.run s).2.names = ns ∧ Q (x.run s).1

namespace Under

theorem pure {Q : α → Prop} {a : α} (h : Q a) : Under ns (Pure.pure a) Q := fun _ hs => ⟨hs, h⟩

theorem bind {x : Resolving α} {f : α → Resolving β} {P : α → Prop} {Q : β → Prop}
    (hx : Under ns x P) (hf : ∀ a, P a → Under ns (f a) Q) : Under ns (x >>= f) Q := by
  intro s hs
  obtain ⟨hnext, hP⟩ := hx s hs
  exact hf _ hP _ hnext

theorem of_gives {x : Resolving α} {P Q : α → Prop}
    (hnames : Along (fun s t => t.names = s.names) x) (hx : Gives x P) (h : ∀ a, P a → Q a) :
    Under ns x Q :=
  fun s hs => ⟨(hnames s).trans hs, h _ (hx s)⟩

end Under

end Resolving

namespace Capture
open Resolving Resolve

variable {within : Option Expansion} {id : String}

-- A node with a part that is not known is rebuilt from what its parts resolve to.

/-- What was found is a mock. -/
def Known (r : Resolved) : Prop := ∃ m, r = .mock m

lemma known_pair {l r : Resolved} (hl : Known l) (hr : Known r) : ∀ part ∈ [l, r], Known part :=
  List.forall_mem_cons.mpr ⟨hl, List.forall_mem_singleton.mpr hr⟩

lemma known_of_value {r : Resolved} {v : Value} (h : r.value? = some v) : Known r := by
  obtain ⟨name, rfl⟩ := Resolved.eq_mock_of_value h
  exact ⟨_, rfl⟩

lemma known_of_intLike {r : Resolved} {v : Value} (h : r.intLike? = some v) : Known r :=
  known_of_value (Resolved.intLike_spec h).1

lemma unary_rebuilt (op : UnaryOp) (r : Resolved) :
    Gives (unary op r) fun x => x = .expr (.unary op r.toExpr) ∨ ∀ part ∈ [r], Known part := by
  unfold unary
  split
  · exact .pure (.inl rfl)
  · next v hv => exact fun _ => .inr (List.forall_mem_singleton.mpr (known_of_intLike hv))

lemma binary_rebuilt (l : Resolved) (op : BinaryOp) (r : Resolved) :
    Gives (binary l op r) fun x =>
      x = .expr (.binary l.toExpr op r.toExpr) ∨ ∀ part ∈ [l, r], Known part := by
  unfold binary
  split
  · split
    · next v w hv hw =>
      exact fun _ => .inr (known_pair (known_of_intLike hv) (known_of_intLike hw))
    · exact .pure (.inl rfl)
  · exact .pure (.inl rfl)

lemma chain_rebuilt (op : BoolOp) (rs : List Resolved) :
    chain op rs = .expr (.bool op (rs.map Resolved.toExpr)) ∨ ∀ r ∈ rs, Known r := by
  unfold chain
  split
  · next hall =>
    refine .inr fun r hr => ?_
    obtain ⟨v, hv⟩ := Option.isSome_iff_exists.mp (List.all_eq_true.mp hall r hr)
    exact known_of_intLike hv
  · exact .inl rfl

lemma member_rebuilt (object : Resolved) (attr : String) :
    Gives (member object attr) fun x =>
      x = .expr (.attribute object.toExpr attr) ∨ ∀ part ∈ [object], Known part := by
  cases object with
  | mock m => exact fun _ => .inr (List.forall_mem_singleton.mpr ⟨m, rfl⟩)
  | expr e => exact .pure (.inl rfl)

lemma list_rebuilt (rs : List Resolved) :
    list rs = .expr (.list (rs.map Resolved.toExpr)) ∨ ∀ r ∈ rs, Known r := by
  unfold list
  split
  · next values hvalues =>
    refine .inr fun r hr => ?_
    obtain ⟨v, hv⟩ := (exists_of_mapM hvalues).1 r hr
    exact known_of_value hv
  · exact .inl rfl

lemma lambda_rebuilt (params : String) (r : Resolved) :
    lambda params r = .expr (.lambda params r.toExpr) ∨ Known r := by
  cases r with
  | mock m => exact .inr ⟨m, rfl⟩
  | expr e => exact .inl rfl

lemma known_of_bound {o : Option Resolved} {b : Option Int} (h : bound? o = some b) :
    ∀ r ∈ o.toList, Known r := by
  cases o with
  | none => exact fun r hr => absurd hr List.not_mem_nil
  | some r =>
    obtain ⟨v, hv⟩ := intLike_of_bound h
    exact List.forall_mem_singleton.mpr (known_of_intLike hv)

lemma slice_rebuilt (object : Resolved) (lower upper step : Option Resolved) :
    Gives (slice object lower upper step) fun x =>
      x = .expr (.subscript object.toExpr (.slice (lower.map Resolved.toExpr)
        (upper.map Resolved.toExpr) (step.map Resolved.toExpr))) ∨
      Known object ∧ ∀ r ∈ lower.toList ++ upper.toList ++ step.toList, Known r := by
  unfold slice
  split
  · next sequence bounds hsequence hbounds =>
    refine fun _ => .inr ⟨known_of_value hsequence, ?_⟩
    obtain ⟨⟨_, hl⟩, ⟨_, hu⟩, _, hd⟩ := exists_of_bounds hbounds
    simp only [List.forall_mem_append]
    exact ⟨⟨known_of_bound hl, known_of_bound hu⟩, known_of_bound hd⟩
  · exact .pure (.inl rfl)

lemma subscript_rebuilt (object key : Resolved) :
    Gives (subscript object key) fun x =>
      x = .expr (.subscript object.toExpr key.toExpr) ∨ ∀ part ∈ [object, key], Known part := by
  cases object with
  | mock m =>
    cases key with
    | mock index => exact fun _ => .inr (known_pair ⟨m, rfl⟩ ⟨index, rfl⟩)
    | expr e => exact .pure (.inl rfl)
  | expr e => exact .pure (.inl rfl)

lemma known_of_arguments {args : List Resolved} {named : List NamedArgument} {a : Arguments}
    (h : arguments? args named = some a) : ∀ r ∈ args ++ named.map Prod.snd, Known r := by
  obtain ⟨rfl, rfl⟩ := arguments?_eq_some.mp h
  simp only [List.forall_mem_append, List.forall_mem_map]
  exact ⟨fun m _ => ⟨m, rfl⟩, fun n _ => ⟨n.2, rfl⟩⟩

lemma known_of_onlySource {args : List Resolved} {named : List NamedArgument} {source : String}
    (h : onlySource? args named = some source) : ∀ r ∈ args ++ named.map Prod.snd, Known r := by
  unfold onlySource? at h
  split at h
  · next m => exact List.forall_mem_singleton.mpr ⟨m, rfl⟩
  · contradiction

lemma call_rebuilt (callee : Resolved) (args : List Resolved) (named : List NamedArgument) :
    Gives (call within callee args named) fun x =>
      x = .expr (residualCall callee args named) ∨
      ∀ r ∈ callee :: (args ++ named.map Prod.snd), Known r := by
  cases callee with
  | expr e => exact .pure (.inl rfl)
  | mock m =>
    unfold call
    dsimp only
    split
    · next source hsource =>
      split at hsource
      · exact fun _ => .inr (List.forall_mem_cons.mpr ⟨⟨m, rfl⟩, known_of_onlySource hsource⟩)
      · contradiction
    · split
      · exact .after (.pure (.inl rfl))
      · split
        · next a ha =>
          exact fun _ => .inr (List.forall_mem_cons.mpr ⟨⟨m, rfl⟩, known_of_arguments ha⟩)
        · exact .pure (.inl rfl)

/-- What an expression resolves to keeps a name, and is known only if the name is not in it. -/
structure Found (id : String) (e : Expr) (r : Resolved) : Prop where
  keeps : Keeps id e r.toExpr
  known : Known r → Absent id e

namespace Found

variable {e e' : Expr} {r : Resolved} {es : List Expr} {rs : List Resolved}

lemma of_absent (h : Absent id e) (r : Resolved) : Found id e r :=
  ⟨.of_absent h r.toExpr, fun _ => h⟩

lemma of_keeps (h : Keeps id e e') : Found id e (.expr e') where
  keeps := h
  known := by rintro ⟨m, ⟨⟩⟩

/-- Expressions one by one. -/
abbrev Row (id : String) : List Expr → List Resolved → Prop := List.Forall₂ (Found id)

lemma row (h : Row id es rs) : Keeps.Row id es (rs.map Resolved.toExpr) :=
  List.forall₂_map_right_iff.mpr (h.imp fun _ _ h => h.keeps)

lemma absent_of_row (h : Row id es rs) (hrs : ∀ r ∈ rs, Known r) :
    ∀ part ∈ plainParts es, Absent id part.2 := by
  induction h with
  | nil => exact fun part hpart => absurd hpart List.not_mem_nil
  | cons hr _ ih =>
    obtain ⟨hfirst, hrest⟩ := List.forall_mem_cons.mp hrs
    exact List.forall_mem_cons.mpr ⟨hr.known hfirst, ih hrest⟩

/-- An expression that is rebuilt, or known in all of its parts. -/
theorem of_row (hname : e.name? = none) (hparts : e.parts = plainParts es)
    (hparts' : e'.parts = plainParts (rs.map Resolved.toExpr)) (h : Row id es rs)
    (hr : r = .expr e' ∨ ∀ r ∈ rs, Known r) : Found id e r := by
  rcases hr with rfl | hknown
  · exact .of_keeps (.of_row hname hparts hparts' (row h))
  · exact .of_absent (.of_parts hname (hparts ▸ absent_of_row h hknown)) r

end Found

section Expressions

variable {ns : Namespace}

/-- A namespace has nothing for a name, and expansions bind no names. -/
structure Unknown (id : String) (ns : Namespace) (within : Option Expansion) : Prop where
  unbound : ns.get? id = none
  followed : Followed (Along (fun s t => t.names = s.names) ·) within

/-- A node that is rebuilt, or known in all of its parts. -/
lemma node_found {x : Resolving Resolved} {e e' : Expr} {es : List Expr} {rs : List Resolved}
    (hnames : Along (fun s t => t.names = s.names) x)
    (hx : Gives x fun r => r = .expr e' ∨ ∀ part ∈ rs, Known part) (h : Found.Row id es rs)
    (hname : e.name? = none) (hparts : e.parts = plainParts es)
    (hparts' : e'.parts = plainParts (rs.map Resolved.toExpr)) : Under ns x (Found id e) :=
  .of_gives hnames hx fun _ hr => .of_row hname hparts hparts' h hr

lemma name_found (h : Unknown id ns within) (name : String) :
    Under ns (Resolve.name name) (Found id (.name name)) := by
  intro s hs
  refine ⟨(name_holds h.followed.closed name s).trans hs, ?_⟩
  by_cases hname : name = id
  · subst hname
    have hread : ((expr within (.name name)).run s).1 = .expr (.name name) := by
      rw [name_run, hs, h.unbound]
    rw [expr] at hread
    rw [hread]
    exact .of_keeps (.refl name _)
  · refine .of_absent ?_ _
    rintro place (_ | ⟨hpart, -⟩)
    · contradiction
    · cases hpart

lemma flatMap_toExpr (rs : List (Option Resolved)) :
    (rs.map (·.map Resolved.toExpr)).flatMap Option.toList =
      (rs.flatMap Option.toList).map Resolved.toExpr := by
  induction rs with
  | nil => rfl
  | cons r rest ih => cases r <;> simp [ih]

/-- A slice of a sequence, whose bounds are parts of a part. -/
lemma slice_found {value : Expr} {lower upper step : Option Expr} {object r : Resolved}
    {l u d : Option Resolved} (hobject : Found id value object)
    (hl : Found.Row id lower.toList l.toList) (hu : Found.Row id upper.toList u.toList)
    (hd : Found.Row id step.toList d.toList)
    (hr : r = .expr (.subscript object.toExpr (.slice (l.map Resolved.toExpr)
        (u.map Resolved.toExpr) (d.map Resolved.toExpr))) ∨
      Known object ∧ ∀ r ∈ l.toList ++ u.toList ++ d.toList, Known r) :
    Found id (.subscript value (.slice lower upper step)) r := by
  have hbounds := List.rel_append (List.rel_append hl hu) hd
  rcases hr with rfl | ⟨hknown, hall⟩
  · have hslice : Keeps id (.slice lower upper step) (.slice (l.map Resolved.toExpr)
        (u.map Resolved.toExpr) (d.map Resolved.toExpr)) := by
      refine .of_row rfl rfl rfl ?_
      cases l <;> cases u <;> cases d <;> exact Found.row hbounds
    exact .of_keeps (.of_row rfl rfl rfl (.cons hobject.keeps (.cons hslice .nil)))
  · have hslice : Absent id (.slice lower upper step) :=
      .of_parts rfl (Found.absent_of_row hbounds hall)
    have habsent : Absent id (.subscript value (.slice lower upper step)) :=
      .of_parts rfl (List.forall_mem_cons.mpr
        ⟨hobject.known hknown, List.forall_mem_singleton.mpr hslice⟩)
    exact .of_absent habsent r

mutual

/-- Whatever is resolved keeps a name that the session has nothing for. -/
theorem expr_found (h : Unknown id ns within) (e : Expr) :
    Under ns (expr within e) (Found id e) := by
  have hP := h.followed.closed
  cases e with
  | constant | verbatim =>
    refine .pure (.of_absent ?_ _)
    rintro place (_ | ⟨hpart, -⟩)
    cases hpart
  | name name =>
    rw [expr]
    exact name_found h name
  | subscript value key =>
    cases key with
    | slice lower upper step =>
      rw [expr]
      refine .bind (expr_found h value) fun object hobject =>
        .bind (option_found h lower) fun l hl => .bind (option_found h upper) fun u hu =>
          .bind (option_found h step) fun d hd => ?_
      exact .of_gives (slice_holds hP _ _ _ _) (slice_rebuilt object l u d)
        fun r hr => slice_found hobject hl hu hd hr
    | _ =>
      have ihvalue := expr_found h value
      rw [expr_subscript]
      · exact .bind ihvalue fun object hobject => .bind (expr_found h _) fun k hk =>
          node_found (subscript_holds hP _ _) (subscript_rebuilt object k)
            (.cons hobject (.cons hk .nil)) rfl rfl rfl
      · nofun
  | unary op operand =>
    rw [expr]
    exact .bind (expr_found h operand) fun r hr =>
      node_found (unary_holds hP _ _) (unary_rebuilt op r) (.cons hr .nil) rfl rfl rfl
  | binary left op right =>
    rw [expr]
    exact .bind (expr_found h left) fun l hl => .bind (expr_found h right) fun r hr =>
      node_found (binary_holds hP _ _ _) (binary_rebuilt l op r) (.cons hl (.cons hr .nil))
        rfl rfl rfl
  | bool op values =>
    rw [expr]
    exact .bind (exprs_found h values) fun rs hrs =>
      .pure (.of_row rfl rfl rfl hrs (chain_rebuilt op rs))
  | «attribute» value attr =>
    rw [expr]
    exact .bind (expr_found h value) fun r hr =>
      node_found (member_holds hP _ _) (member_rebuilt r attr) (.cons hr .nil) rfl rfl rfl
  | call func args keywords =>
    rw [expr]
    refine .bind (expr_found h func) fun callee hcallee => .bind (exprs_found h args) fun rs hrs =>
      .bind (namedArguments_found h keywords) fun named hnamed => ?_
    have hrow : Found.Row id _ (callee :: (rs ++ named.map Prod.snd)) :=
      .cons hcallee (List.rel_append hrs hnamed)
    have hparts : (residualCall callee rs named).parts =
        plainParts ((callee :: (rs ++ named.map Prod.snd)).map Resolved.toExpr) := by
      simp [residualCall, Expr.parts, keyword, Function.comp_def]
    exact node_found (call_holds h.followed _ _ _) (call_rebuilt callee rs named) hrow rfl rfl
      hparts
  | list items =>
    rw [expr]
    exact .bind (exprs_found h items) fun rs hrs =>
      .pure (.of_row rfl rfl rfl hrs (list_rebuilt rs))
  | lambda params body =>
    rw [expr]
    refine .bind (expr_found h body) fun r hr => .pure ?_
    rcases lambda_rebuilt params r with hbuilt | hknown
    · rw [hbuilt]
      exact .of_keeps (.of_parts rfl (.cons ⟨rfl, hr.keeps⟩ .nil))
    · have habsent : Absent id (.lambda params body) :=
        .of_parts rfl (List.forall_mem_singleton.mpr (hr.known hknown))
      exact .of_absent habsent _
  | slice lower upper step =>
    rw [expr]
    refine .bind (option_found h lower) fun l hl => .bind (option_found h upper) fun u hu =>
      .bind (option_found h step) fun d hd => .pure ?_
    have hbounds := List.rel_append (List.rel_append hl hu) hd
    refine .of_keeps (.of_row rfl rfl rfl ?_)
    cases l <;> cases u <;> cases d <;> exact Found.row hbounds
  | compare left ops comparators =>
    rw [expr]
    exact .bind (expr_found h left) fun l hl => .bind (exprs_found h comparators) fun rs hrs =>
      .pure (.of_keeps (.of_row rfl rfl rfl (.cons hl.keeps (Found.row hrs))))
  | conditional test body orelse =>
    rw [expr]
    exact .bind (expr_found h test) fun t ht => .bind (expr_found h body) fun b hb =>
      .bind (expr_found h orelse) fun o ho =>
        .pure (.of_keeps (.of_row rfl rfl rfl
          (.cons ht.keeps (.cons hb.keeps (.cons ho.keeps .nil)))))
  | named _ value | starred value | await value =>
    rw [expr]
    exact .bind (expr_found h value) fun r hr =>
      .pure (.of_keeps (.of_row rfl rfl rfl (.cons hr.keeps .nil)))
  | tuple items | «set» items =>
    rw [expr]
    exact .bind (exprs_found h items) fun rs hrs =>
      .pure (.of_keeps (.of_row rfl rfl rfl (Found.row hrs)))
  | dict keys values =>
    rw [expr]
    refine .bind (options_found h keys) fun ks hks => .bind (exprs_found h values) fun rs hrs => ?_
    have hkeys := Found.row hks
    rw [← flatMap_toExpr] at hkeys
    exact .pure (.of_keeps (.of_row rfl rfl rfl (List.rel_append hkeys (Found.row hrs))))
  | listComp elt gs | setComp elt gs | generator elt gs =>
    rw [expr]
    exact .bind (comprehensions_found h gs) fun _ hgs => .bind (expr_found h elt) fun r hr =>
      .pure (.of_keeps (.of_parts rfl (Keeps.comprehension (.cons hr.keeps .nil) hgs)))
  | dictComp key value gs =>
    rw [expr]
    exact .bind (comprehensions_found h gs) fun _ hgs => .bind (expr_found h key) fun k hk =>
      .bind (expr_found h value) fun r hr => .pure (.of_keeps (.of_parts rfl
        (Keeps.comprehension (.cons hk.keeps (.cons hr.keeps .nil)) hgs)))

theorem option_found (h : Unknown id ns within) (o : Option Expr) :
    Under ns (option within o) fun r => Found.Row id o.toList r.toList := by
  cases o with
  | none => exact .pure .nil
  | some e =>
    rw [option]
    exact .bind (expr_found h e) fun r hr => .pure (.cons hr .nil)

theorem options_found (h : Unknown id ns within) (os : List (Option Expr)) :
    Under ns (options within os) fun rs =>
      Found.Row id (os.flatMap Option.toList) (rs.flatMap Option.toList) := by
  cases os with
  | nil => exact .pure .nil
  | cons o rest =>
    rw [options]
    exact .bind (option_found h o) fun r hr => .bind (options_found h rest) fun rs hrs =>
      .pure (List.rel_append hr hrs)

theorem exprs_found (h : Unknown id ns within) (es : List Expr) :
    Under ns (exprs within es) (Found.Row id es) := by
  cases es with
  | nil => exact .pure .nil
  | cons e rest =>
    rw [exprs]
    exact .bind (expr_found h e) fun r hr => .bind (exprs_found h rest) fun rs hrs =>
      .pure (.cons hr hrs)

theorem namedArgument_found (h : Unknown id ns within) (k : Keyword) :
    Under ns (namedArgument within k) fun a => Found id k.value a.2 := by
  obtain ⟨arg, value⟩ := k
  rw [namedArgument]
  exact .bind (expr_found h value) fun r hr => .pure hr

theorem namedArguments_found (h : Unknown id ns within) (ks : List Keyword) :
    Under ns (namedArguments within ks) fun named =>
      Found.Row id (ks.map Keyword.value) (named.map Prod.snd) := by
  cases ks with
  | nil => exact .pure .nil
  | cons k rest =>
    rw [namedArguments]
    exact .bind (namedArgument_found h k) fun a ha =>
      .bind (namedArguments_found h rest) fun named hnamed => .pure (.cons ha hnamed)

theorem target_found (h : Unknown id ns within) (goal : Expr) :
    Under ns (target within goal) (Keeps.Goal id goal) := by
  cases goal with
  | tuple items | list items =>
    rw [target]
    exact .bind (targets_found h items) fun _ hitems => .pure ⟨hitems.names, hitems.parts⟩
  | starred value =>
    rw [target]
    exact .bind (target_found h value) fun _ hvalue => .pure ⟨hvalue.names, hvalue.parts⟩
  | subscript value key =>
    rw [target]
    exact .bind (expr_found h value) fun _ hvalue => .bind (expr_found h key) fun _ hkey =>
      .pure ⟨rfl, .cons hvalue.keeps (.cons hkey.keeps .nil)⟩
  | «attribute» value attr =>
    rw [target]
    exact .bind (expr_found h value) fun _ hvalue => .pure ⟨rfl, .cons hvalue.keeps .nil⟩
  | _ => exact .pure ⟨rfl, .nil⟩

theorem targets_found (h : Unknown id ns within) (goals : List Expr) :
    Under ns (targets within goals) (Keeps.Goals id goals) := by
  cases goals with
  | nil => exact .pure ⟨rfl, .nil⟩
  | cons goal rest =>
    rw [targets]
    exact .bind (target_found h goal) fun _ hgoal => .bind (targets_found h rest) fun _ hrest =>
      .pure ⟨congrArg₂ (· ++ ·) hgoal.names hrest.names, List.rel_append hgoal.parts hrest.parts⟩

theorem comprehension_found (h : Unknown id ns within) (g : Comprehension) :
    Under ns (comprehension within g) (Keeps.Clause id g) := by
  obtain ⟨goal, iter, ifs, isAsync⟩ := g
  rw [comprehension]
  exact .bind (expr_found h iter) fun _ hiter => .bind (target_found h goal) fun _ hgoal =>
    .bind (exprs_found h ifs) fun _ hifs => .pure ⟨hgoal, hiter.keeps, Found.row hifs⟩

theorem comprehensions_found (h : Unknown id ns within) (gs : List Comprehension) :
    Under ns (comprehensions within gs) (List.Forall₂ (Keeps.Clause id) gs) := by
  cases gs with
  | nil => exact .pure .nil
  | cons g rest =>
    rw [comprehensions]
    exact .bind (comprehension_found h g) fun _ hg => .bind (comprehensions_found h rest)
      fun _ hrest => .pure (.cons hg hrest)

end

end Expressions

/-- `[(1).__neg__(id) for id in ()]`: the method ignores its arguments. -/
def negated (id : String) : Expr :=
  .listComp (.apply (.attribute (.int 1) Method.neg.name) [.name id])
    [⟨.name id, .tuple [], [], false⟩]

lemma negated_bound (id : String) : BoundAt id (negated id) [0, 1] :=
  .here rfl List.mem_cons_self (.part rfl .name)

/-- A name that the session has something for is computed away. -/
lemma negated_run {s : Session} {m : Mock} (hm : s.names.get? id = some m) :
    ((expr within (negated id)).run s).1 =
      .expr (.listComp (Value.int (-1)).toExpr [⟨.name id, .tuple [], [], false⟩]) := by
  have hcallee : expr within (.attribute (.int 1) Method.neg.name) =
      pure (.mock (.method (.int 1) .neg)) := by rfl
  have hname : (expr within (.name id)).run s = (.mock m, s) := by rw [name_run, hm]
  have hcall : (expr within (.apply (.attribute (.int 1) Method.neg.name) [.name id])).run s =
      (.mock (.value "int" (.int (-1))), s) := by
    rw [Expr.apply, expr, exprs, exprs, namedArguments, hcallee]
    simp only [pure_bind, bind_assoc, StateT.run_bind, hname]
    rfl
  have hclauses : comprehensions within [⟨.name id, .tuple [], [], false⟩] =
      pure [⟨.name id, .tuple [], [], false⟩] := by rfl
  rw [negated, expr, hclauses, pure_bind, StateT.run_bind, hcall]
  rfl

end Capture

namespace Namespace

/-- `[id for id in ()]`. -/
lemma repeated_bound (id : String) :
    BoundAt id (.listComp (.name id) [⟨.name id, .tuple [], [], false⟩]) [0] :=
  .here rfl List.mem_cons_self .name

/-- A bound name stays everywhere in a cleanup if and only if it stands for itself. -/
theorem cleanup_keeps_bound_iff (ns : Namespace) (id : String) :
    (∀ e place, BoundAt id e place → BoundAt id (ns.cleanup.onExpr e) place) ↔
      ns.substitute id = .name id := by
  rw [cleanup_eq]
  refine ⟨fun h => ?_, fun h e place hbound => (substituting_keeps h e).bound place hbound⟩
  have hread := (h _ _ (repeated_bound id)).readAt
  cases hread with
  | part hpart hread =>
    cases hpart
    generalize hsame : (Fold.substituting ns.substitute).onExpr (.name id) = e at hread
    cases hread
    exact hsame

end Namespace

namespace Session
open Resolve Capture

/-- A bound name stays everywhere where a session resolves if and only if the session has nothing
for it. -/
theorem resolve_keeps_bound_iff (s : Session) (id : String) :
    (∀ e place, BoundAt id e place → ∃ r, (s.resolve e).1 = .expr r ∧ BoundAt id r place) ↔
      s.names.get? id = none := by
  constructor
  · intro h
    by_contra hbound
    obtain ⟨m, hm⟩ := Option.ne_none_iff_exists'.mp hbound
    obtain ⟨r, hr, hplace⟩ := h _ _ (negated_bound id)
    rw [resolve_eq_run, negated_run hm] at hr
    cases hr
    -- The literal in the name's place has a digit for its only part.
    cases hplace.readAt with
    | part hpart hread =>
      cases hpart
      cases hread with
      | part hpart _ => cases hpart
  · intro h e place hbound
    have hunknown : Unknown id s.names (expansion (maxNesting - s.depth)) := ⟨h, followed_names _⟩
    obtain ⟨-, hfound⟩ := expr_found hunknown e s rfl
    rw [← resolve_eq_run] at hfound
    cases hr : (s.resolve e).1 with
    | mock m => exact absurd hbound.readAt (hfound.known ⟨m, hr⟩ place)
    | expr r =>
      rw [hr] at hfound
      exact ⟨r, rfl, hfound.keeps.bound place hbound⟩

/-- Resolving and cleaning leave a bound name at its place, in every expression, if and only if the
session has nothing for the name, or, for the cleanup, only what is written as the name. -/
theorem bound_names_stay_iff (s : Session) (id : String) :
    ((∀ e place, BoundAt id e place → ∃ r, (s.resolve e).1 = .expr r ∧ BoundAt id r place) ↔
      s.names.get? id = none) ∧
    ((∀ e place, BoundAt id e place → BoundAt id (s.names.cleanup.onExpr e) place) ↔
      ∀ m, s.names.local? id = some m → m.revert = .name id) :=
  ⟨resolve_keeps_bound_iff s id,
    (s.names.cleanup_keeps_bound_iff id).trans Namespace.substitute_eq_name_iff⟩

/-- After `globals()['x'] = 1` the `x` that `[x for x in y]` binds becomes `1`, and in a new session
`lambda globals: globals()` is taken for a function that gives the global names. -/
theorem bound_names_replaced :
    let write : Stmt := .assign [.subscript (.apply (.name "globals") []) (.str "x")] (.int 1)
    let s := ((start .empty).transform [write]).2
    let row (elt : Expr) : Expr := .listComp elt [⟨.name "x", .name "y", [], false⟩]
    let shadowing : Expr := .lambda "globals" (.apply (.name "globals") [])
    (BoundAt "x" (row (.name "x")) [0] ∧ (s.resolve (row (.name "x"))).1 = .expr (row (.int 1)) ∧
      s.names.cleanup.onExpr (row (.name "x")) = row (.int 1) ∧
      ¬ BoundAt "x" (row (.int 1)) [0]) ∧
    BoundAt "globals" shadowing [0, 0] ∧
      ((start .empty).resolve shadowing).1 = .mock (.getter .globals) := by
  intro write s row shadowing
  have hgone : ¬ BoundAt "x" (row (.int 1)) [0] := by
    intro h
    cases h.readAt with
    | part hpart hread =>
      cases hpart
      cases hread
  have hparameters : "globals" ∈ parameterNames "globals" := by decide +kernel
  exact ⟨⟨.here rfl List.mem_cons_self .name, by rfl, by rfl, hgone⟩,
    .here rfl hparameters (.part rfl .name), by rfl⟩

end Session
end Unmask
