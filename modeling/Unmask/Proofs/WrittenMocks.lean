import Unmask.Proofs.DanglingNames
import Unmask.Proofs.FoldSoundness

/-!
# Mocks read back

A mock is written as an expression that denotes the object it stands for. So a new session that
reads what was written should find that object again. It does for all that it can find in the
first place with one exception: `unhexlify` is written by its name alone, and no program starts
with that name.
-/
namespace Unmask

/-- An object of a program that is no value. -/
inductive Handle where
  | library (l : Library)
  | scope (s : Scope)
  | builtin (b : Builtin)
  | method (f : Method)
  | getter (s : Scope)
  deriving DecidableEq

/-- The object that a mock stands for, unless it is a value, compiled text or unknown. -/
def Mock.handle? : Mock → Option Handle
  | .library l => some (.library l)
  | .scope s => some (.scope s)
  | .builtin b => some (.builtin b)
  | .method _ f => some (.method f)
  | .getter s => some (.getter s)
  | .value _ _ => none
  | .code _ => none
  | .unknown _ => none

/-- Two mocks stand for the same object. The name under which a mock is shown does not count. -/
structure Mock.Denotes (m n : Mock) : Prop where
  tag : n.tag = m.tag
  payload : n.payload? = m.payload?
  handle : n.handle? = m.handle?

/-- What was found is a mock of the same object. -/
def Resolved.ReadsBack (r : Resolved) (m : Mock) : Prop := ∃ n, r = .mock n ∧ m.Denotes n

/-- A value in which `None` does not occur. -/
inductive Value.Definite : Value → Prop where
  | bool (b : Bool) : Definite (.bool b)
  | int (n : Int) : Definite (.int n)
  | float (x : Float) : Definite (.float x)
  | str (s : String) : Definite (.str s)
  | bytes (b : Bytes) : Definite (.bytes b)
  | list {items : List Value} (h : ∀ v ∈ items, Definite v) : Definite (.list items)

namespace Value

lemma Definite.of_exact {v : Value} (h : Evaluation.Exact v) : v.Definite := by
  induction h with
  | bool b => exact .bool b
  | int n => exact .int n
  | str s => exact .str s
  | bytes b => exact .bytes b
  | list _ ih => exact .list ih

/-- A literal is definite unless it is `None` itself. -/
lemma definite_ofConstant {c : Constant} {v : Value} (h : ofConstant? c = some v)
    (hv : v ≠ .none) : v.Definite := by
  cases c with
  | none =>
    cases h
    exact absurd rfl hv
  | bool b => cases h; exact .bool b
  | int n => cases h; exact .int n
  | float x => cases h; exact .float x
  | str s => cases h; exact .str s
  | bytes b => cases h; exact .bytes b
  | ellipsis => cases h

lemma definite_unary {op : UnaryOp} {v w : Value} (h : v.unary op = .ok w) : w.Definite := by
  unfold unary at h
  split at h
  · cases h; exact .bool _
  · cases h; exact .int _
  · cases h; exact .int _
  · cases h; exact .int _
  · cases h; exact .float _
  · cases h; exact .float _
  · cases h

lemma definite_binary {op : BinaryOp} {v w u : Value} {k n : Int} (hop : op = .add ∨ op = .sub)
    (hv : v.asInt? = some k) (hw : w.asInt? = some n) (h : v.binary op w = .ok u) :
    u.Definite := by
  have hexact := @Evaluation.binary_ok (fun _ _ => none) _ _ _ _ _ _ hop hv hw h
  exact .of_exact hexact.2

lemma mem_of_element {α : Type} {items : List α} {index : Int} {a : α}
    (h : Value.element? items index = some a) : a ∈ items := by
  obtain ⟨place, -, hget⟩ := Option.bind_eq_some_iff.mp h
  exact List.mem_of_getElem? hget

lemma Definite.index {v position w : Value} (hv : v.Definite) (h : v.index position = .ok w) :
    w.Definite := by
  unfold Value.index at h
  split at h
  · cases h
  · cases hv with
    | str s =>
      dsimp only at h
      split at h
      · next e he =>
        cases h
        obtain ⟨c, -, rfl⟩ := Option.map_eq_some_iff.mp he
        exact .str _
      · cases h
    | bytes b =>
      dsimp only at h
      split at h
      · next e he =>
        cases h
        obtain ⟨o, -, rfl⟩ := Option.map_eq_some_iff.mp he
        exact .int _
      · cases h
    | list hitems =>
      dsimp only at h
      split at h
      · next e he =>
        cases h
        exact hitems _ (mem_of_element he)
      · cases h
    | _ => cases h

lemma Definite.slice {v w : Value} {b : Bounds} (hv : v.Definite) (h : v.slice b = .ok w) :
    w.Definite := by
  unfold Value.slice at h
  dsimp only at h
  cases hv with
  | str s =>
    dsimp only at h
    split at h
    · cases h
    · cases h; exact .str _
  | bytes o =>
    dsimp only at h
    split at h
    · cases h
    · cases h; exact .bytes _
  | list hitems =>
    dsimp only at h
    split at h
    · cases h
    · cases h
      refine .list fun v hv => ?_
      obtain ⟨place, -, hget⟩ := List.mem_filterMap.mp hv
      exact hitems v (List.mem_of_getElem? (by simpa using hget))
  | _ => cases h

end Value

/-- A mock that a new session can find: its values are definite, and a method is one that the value
it belongs to has. -/
def Mock.Faithful : Mock → Prop
  | .value _ v => v.Definite
  | .method receiver f => receiver.Definite ∧ f ∈ Method.ofKind receiver.kind
  | .unknown _ => False
  | _ => True

namespace Mock

lemma faithful_ofValue {v : Value} {m : Mock} (hv : v ≠ .none → v.Definite)
    (h : Mock.ofValue v = .ok m) : m.Faithful := by
  cases v with
  | none => cases h
  | _ =>
    cases h
    exact hv nofun

lemma Basic.faithful {m : Mock} (h : Basic m) : m.Faithful := by
  cases h with
  | bool _ b => exact .bool b
  | builtin => trivial

lemma Member.faithful {object m : Mock} (ho : object.Faithful) (h : Member object m) :
    m.Faithful := by
  cases h with
  | basic h => exact h.faithful
  | method hf => exact ⟨ho, hf⟩

lemma Computed.definite {object : Mock} {v : Value} (ho : object.Faithful)
    (h : Computed object v) : v.Definite := by
  cases h with
  | bool b => exact .bool b
  | int n => exact .int n
  | float x => exact .float x
  | str s => exact .str s
  | bytes b => exact .bytes b
  | names names =>
    refine .list fun v hv => ?_
    obtain ⟨name, -, rfl⟩ := List.mem_map.mp hv
    exact .str name
  | unary h => exact Value.definite_unary h
  | item h => exact ho.1.index h

lemma faithful_call {object m : Mock} {a : Arguments} (ho : object.Faithful)
    (ha : ∀ n ∈ a.positional, n.Faithful) (h : object.call a = .ok (some m)) : m.Faithful := by
  cases result_of_call h with
  | value hv hresult => exact faithful_ofValue (fun _ => hv.definite ho) hresult
  | member hn hmember => exact hmember.faithful (ha _ hn)
  | code | library | scope => trivial

lemma Held.definite {v : Value} (h : Held Faithful v) : v.Definite := by
  obtain ⟨m, hm, hv⟩ := h
  cases m with
  | value =>
    cases hv
    exact hm
  | code source =>
    cases hv
    exact .str source
  | _ => contradiction

/-- Whatever a session finds is faithful. -/
theorem faithful_lasting : Lasting Faithful where
  constant hc h := faithful_ofValue (Value.definite_ofConstant hc) h
  unary _ hresult h := faithful_ofValue (fun _ => Value.definite_unary hresult) h
  binary hop hv hw hresult h :=
    faithful_ofValue (fun _ => Value.definite_binary hop hv hw hresult) h
  list hvalues h := faithful_ofValue (fun _ => .list fun v hv => (hvalues v hv).definite) h
  slice hv hresult h := faithful_ofValue (fun _ => hv.definite.slice hresult) h
  index hv hresult h := faithful_ofValue (fun _ => hv.definite.index hresult) h
  base h := (basic_of_ofBaseName? h).faithful
  getter _ := trivial
  member ho h := (member_of_getAttr h).faithful ho
  call hm hpositional _ := faithful_call hm hpositional

end Mock

namespace Resolve

/-- The values of mocks of values. -/
lemma values_of_mocks (items : List Value) :
    (items.map fun v => Resolved.mock (.value v.kind.name v)).mapM Resolved.value? =
      some items := by
  induction items with
  | nil => rfl
  | cons v rest ih =>
    rw [List.map_cons, List.mapM_cons, ih]
    rfl

variable (within : Option Expansion)

mutual

/-- A definite value is found again where it is written. -/
lemma expr_toExpr {v : Value} (h : v.Definite) :
    expr within v.toExpr = pure (.mock (.value v.kind.name v)) := by
  cases h with
  | list hitems =>
    rw [Value.toExpr, expr, exprs_toExprs hitems, pure_bind, list, values_of_mocks]
    rfl
  | _ =>
    rw [Value.toExpr, expr]
    rfl

lemma exprs_toExprs {items : List Value} (h : ∀ v ∈ items, v.Definite) :
    exprs within (Value.toExprs items) =
      pure (items.map fun v => .mock (.value v.kind.name v)) := by
  cases items with
  | nil => rfl
  | cons v rest =>
    have hv := expr_toExpr (h v List.mem_cons_self)
    have hrest := exprs_toExprs fun w hw => h w (List.mem_cons_of_mem v hw)
    rw [Value.toExprs, exprs, hv, hrest]
    rfl

end

variable {s : Session}

/-- A name that is not bound anew is the object that every program has under it. -/
lemma expr_base {b : Builtin} (hs : s.names = .empty) (hb : b ≠ .unhexlify) :
    (expr within (.name b.name)).run s = (.mock (.builtin b), s) := by
  have hname : s.names.get? b.name = some (.builtin b) := by
    rw [hs]
    cases b with
    | unhexlify => exact absurd rfl hb
    | _ => rfl
  rw [name_run, hname]

lemma expr_missing (hs : s.names = .empty) :
    (expr within (.name Builtin.unhexlify.name)).run s =
      (.expr (.name Builtin.unhexlify.name), s) := by
  have hname : s.names.get? Builtin.unhexlify.name = none := by
    rw [hs]
    rfl
  rw [name_run, hname]

/-- The arguments that known objects are. -/
lemma arguments_of_mocks (items : List Value) :
    arguments? (items.map fun v => .mock (.value v.kind.name v)) [] =
      some ⟨items.map fun v => .value v.kind.name v, []⟩ := by
  have hmocks : (items.map fun v => Resolved.mock (.value v.kind.name v)).mapM Resolved.mock? =
      some (items.map fun v => .value v.kind.name v) := by
    induction items with
    | nil => rfl
    | cons v rest ih =>
      rw [List.map_cons, List.mapM_cons, ih]
      rfl
  unfold arguments?
  rw [hmocks]
  rfl

/-- A function that is called on values gives what it gives. -/
lemma expr_apply (b : Builtin) (items : List Value) {m : Mock} (hs : s.names = .empty)
    (hb : b ≠ .unhexlify) (hknown : b.hasBehaviour) (hitems : ∀ v ∈ items, v.Definite)
    (h : b.call ⟨items.map fun v => .value v.kind.name v, []⟩ = .ok (some m)) :
    (expr within (.apply (.name b.name) (Value.toExprs items))).run s = (.mock m, s) := by
  have heval : isBuiltin .eval (.builtin b) = false := by
    cases b with
    | eval => contradiction
    | _ => rfl
  have hcall : call within (.mock (.builtin b))
      (items.map fun v => .mock (.value v.kind.name v)) [] = pure (.mock m) := by
    simp only [call, heval, Bool.false_eq_true, if_false, Mock.hasBehaviour, hknown,
      Bool.not_true, arguments_of_mocks, callKnown, Mock.call, if_true, h]
  rw [Expr.apply, expr, exprs_toExprs within hitems, namedArguments, StateT.run_bind,
    expr_base within hs hb]
  show (call within (.mock (.builtin b)) _ []).run s = _
  rw [hcall]
  rfl

lemma expr_scope (hs : s.names = .empty) (scope : Scope) :
    (expr within (.apply (.name scope.name) [])).run s = (.mock (.scope scope), s) := by
  cases scope with
  | globals => exact expr_apply within .globals [] hs (by decide) rfl (List.forall_mem_nil _) rfl
  | locals => exact expr_apply within .locals [] hs (by decide) rfl (List.forall_mem_nil _) rfl
  | vars => exact expr_apply within .vars [] hs (by decide) rfl (List.forall_mem_nil _) rfl

/-- The methods of one kind have different names. -/
lemma find_method {kind : Kind} {f : Method} (hf : f ∈ Method.ofKind kind) :
    ((Method.ofKind kind).find? fun g => g.name == f.name) = some f := by
  revert hf
  cases kind <;> cases f <;> decide +kernel

/-- A method is the member of its receiver under its name. -/
lemma member_method {receiver : Value} {f : Method} (hf : f ∈ Method.ofKind receiver.kind) :
    member (.mock (.value receiver.kind.name receiver)) f.name =
      pure (.mock (.method receiver f)) := by
  have hmember : (Mock.value receiver.kind.name receiver).getAttr f.name =
      .ok (.method receiver f) := by
    simp only [Mock.getAttr, Mock.methodOf?, find_method hf, Option.map_some]
  simp only [member, hmember]

/-- A function without named parameters that gives a scope is known to do so. -/
lemma lambda_scope (scope : Scope) :
    lambda "*_" (.mock (.scope scope)) = .mock (.getter scope) := by
  have hignored : isIgnored "*_" = true := by decide +kernel
  simp only [lambda, Resolved.mock?, Option.bind_some, Mock.scope?, hignored, if_true]

/-- What a faithful mock is written as is read back as an object of the same sort, unless it is
`unhexlify`. -/
theorem expr_revert {m : Mock} (hs : s.names = .empty) (hm : m.Faithful)
    (hwritten : m ≠ .builtin .unhexlify) :
    ((expr within m.revert).run s).1.ReadsBack m := by
  cases m with
  | value name v =>
    rw [Mock.revert, expr_toExpr within hm]
    exact ⟨_, rfl, rfl, rfl, rfl⟩
  | code source =>
    let texts := [Value.str source, .str "<string>", .str "exec"]
    have htexts : ∀ v ∈ texts, v.Definite := by
      simp only [texts, List.forall_mem_cons]
      exact ⟨.str _, .str _, .str _, List.forall_mem_nil _⟩
    have hread : (expr within (Mock.code source).revert).run s = (.mock (.code source), s) :=
      expr_apply within .compile texts hs (by decide) rfl htexts rfl
    rw [hread]
    exact ⟨_, rfl, rfl, rfl, rfl⟩
  | builtin b =>
    have hb : b ≠ .unhexlify := fun h => hwritten (h ▸ rfl)
    rw [Mock.revert, expr_base within hs hb]
    exact ⟨_, rfl, rfl, rfl, rfl⟩
  | library l =>
    have hname : ∀ v ∈ [Value.str l.name], v.Definite := List.forall_mem_singleton.mpr (.str _)
    have himport : Builtin.importModule.call ⟨[.value "str" (.str l.name)], []⟩ =
        .ok (some (.library l)) := by
      show Except.ok ((Library.ofName? l.name).map Mock.library) = _
      rw [Library.ofName?_name]
      rfl
    have hread : (expr within (Mock.library l).revert).run s = (.mock (.library l), s) :=
      expr_apply within .importModule [.str l.name] hs (by decide) rfl hname himport
    rw [hread]
    exact ⟨_, rfl, rfl, rfl, rfl⟩
  | scope scope =>
    rw [Mock.revert, expr_scope within hs]
    exact ⟨_, rfl, rfl, rfl, rfl⟩
  | getter scope =>
    rw [Mock.revert, expr, StateT.run_bind, expr_scope within hs]
    show (lambda "*_" (.mock (.scope scope))).ReadsBack _
    rw [lambda_scope]
    exact ⟨_, rfl, rfl, rfl, rfl⟩
  | method receiver f =>
    obtain ⟨hreceiver, hf⟩ := hm
    rw [Mock.revert, expr, expr_toExpr within hreceiver, pure_bind, member_method hf]
    exact ⟨_, rfl, rfl, rfl, rfl⟩
  | unknown => contradiction

end Resolve

namespace Session
open Resolve

/-- A mock that a new session finds is found again, with the same tag, value and handle, where it is
written, if and only if it is not `unhexlify`. -/
theorem found_again_iff {e : Expr} {m : Mock}
    (h : ((Session.start .empty).resolve e).1 = .mock m) :
    ((Session.start .empty).resolve m.revert).1.ReadsBack m ↔ m ≠ .builtin .unhexlify := by
  have hbinds : (Session.start .empty).Binds Mock.Faithful := fun _ _ => nofun
  have hm : m.Faithful := (resolve_has Mock.faithful_lasting hbinds e).2 m h
  refine ⟨?_, fun hwritten => ?_⟩
  · rintro ⟨n, hread, -⟩ rfl
    rw [resolve_eq_run, Mock.revert, expr_missing _ rfl] at hread
    contradiction
  · rw [resolve_eq_run]
    exact expr_revert _ rfl hm hwritten

/-- `getattr([[True, -2], 'a'][0], 'index')` finds the method `index` of `[True, -2]`, and so does
`[True, -2].index`. -/
theorem bound_method_found_again :
    let e := Expr.apply (.name "getattr") [.subscript
      (.list [.list [.name "True", .unary .minus (.int 2)], .str "a"]) (.int 0), .str "index"]
    let m := Mock.method (.list [.bool true, .int (-2)]) .index
    ((start .empty).resolve e).1 = .mock m ∧ ((start .empty).resolve m.revert).1.ReadsBack m := by
  intro e m
  have hfound : ((start .empty).resolve e).1 = .mock m := by rfl
  exact ⟨hfound, (found_again_iff hfound).mpr nofun⟩

/-- `__import__('binascii').unhexlify` finds the function, which is written `unhexlify`, and a new
session finds nothing under that name. -/
theorem unhexlify_not_found_again :
    let e := Expr.attribute (.apply (.name "__import__") [.str "binascii"]) "unhexlify"
    let m := Mock.builtin .unhexlify
    ((start .empty).resolve e).1 = .mock m ∧ m.revert = .name "unhexlify" ∧
      ((start .empty).resolve m.revert).1 = .expr (.name "unhexlify") ∧
      ¬ ((start .empty).resolve m.revert).1.ReadsBack m := by
  intro e m
  have hread : ((start .empty).resolve m.revert).1 = .expr (.name "unhexlify") := by rfl
  refine ⟨by rfl, rfl, hread, ?_⟩
  rintro ⟨n, hn, -⟩
  rw [hread] at hn
  contradiction

end Session
end Unmask
