import Mathlib.Tactic.Lemma
import Unmask.Mock.Call

/-!
# What comes out of mocks

A member of an object is something that every program has, or a method of a value. A call gives a
value that is computed, an item of the value that it is called on, a member of an argument, or an
object of another sort. This is said here once for all functions and methods, so that a property of
mocks need not be followed through them again.
-/
namespace Unmask.Mock

variable {m object : Mock} {a : Arguments} {v : Value}

/-- What a name may refer to in every program. -/
inductive Basic : Mock → Prop where
  | bool (name : String) (b : Bool) : Basic (.value name (.bool b))
  | builtin (b : Builtin) : Basic (.builtin b)

/-- What may be a member of an object. -/
inductive Member : Mock → Mock → Prop where
  | basic {object m : Mock} (h : Basic m) : Member object m
  | method {name : String} {v : Value} {f : Method} (hf : f ∈ Method.ofKind v.kind) :
    Member (.value name v) (.method v f)

lemma basic_of_ofBaseName? {name : String} (h : ofBaseName? name = some m) : Basic m := by
  unfold ofBaseName? at h
  split at h
  · cases h
    exact .bool _ true
  · split at h
    · cases h
      exact .bool _ false
    · obtain ⟨b, -, rfl⟩ := Option.map_eq_some_iff.mp h
      exact .builtin b

lemma basic_of_libraryMember? {l : Library} {attr : String} (h : libraryMember? l attr = some m) :
    Basic m := by
  cases l with
  | builtins => exact basic_of_ofBaseName? h
  | binascii =>
    simp only [libraryMember?] at h
    split at h
    · cases h
      exact .builtin .unhexlify
    · contradiction

theorem member_of_getAttr {attr : String} (h : object.getAttr attr = .ok m) : Member object m := by
  unfold getAttr at h
  dsimp only at h
  split at h
  · next member hfound =>
    cases h
    split at hfound
    · exact .basic (basic_of_libraryMember? hfound)
    · obtain ⟨f, hf, rfl⟩ := Option.map_eq_some_iff.mp hfound
      exact .method (List.mem_of_find?_eq_some hf)
    · contradiction
  · contradiction

/-- A value that a call of a mock may compute. -/
inductive Computed : Mock → Value → Prop where
  | bool {object : Mock} (b : Bool) : Computed object (.bool b)
  | int {object : Mock} (n : Int) : Computed object (.int n)
  | float {object : Mock} (x : Float) : Computed object (.float x)
  | str {object : Mock} (s : String) : Computed object (.str s)
  | bytes {object : Mock} (b : Bytes) : Computed object (.bytes b)
  | names {object : Mock} (names : List String) : Computed object (.list (names.map .str))
  | unary {object : Mock} {op : UnaryOp} {v result : Value} (h : v.unary op = .ok result) :
    Computed object result
  | item {receiver position result : Value} {f : Method}
    (h : receiver.index position = .ok result) : Computed (.method receiver f) result

/-- What a call of a mock may give. -/
inductive Result (object : Mock) (a : Arguments) : Mock → Prop where
  | value {v : Value} {m : Mock} (hv : Computed object v) (h : ofValue v = .ok m) :
    Result object a m
  | member {n m : Mock} (hn : n ∈ a.positional) (h : Member n m) : Result object a m
  | code (source : String) : Result object a (.code source)
  | library (l : Library) : Result object a (.library l)
  | scope (s : Scope) : Result object a (.scope s)

/-- A result that is there whenever a computation succeeds. -/
lemma result_of_map {P : Mock → Prop} {x : Except MockError Mock} {result : Mock}
    (hx : ∀ m, x = .ok m → P m) (h : x.map some = .ok (some result)) : P result := by
  cases x with
  | error => cases h
  | ok m =>
    cases h
    exact hx _ rfl

/-- A result that comes out of the last step. -/
lemma result_of_bind {P : Mock → Prop} {α : Type} {x : Except MockError α}
    {f : α → Except MockError Mock} {m : Mock} (hf : ∀ a, x = .ok a → f a = .ok m → P m)
    (h : (x >>= f) = .ok m) : P m := by
  cases x with
  | error => cases h
  | ok a => exact hf a rfl h

/-- What an evaluation gives is what it gives in a call. -/
lemma ok_of_mapError {α : Type} {x : Except EvalError α} {v : α}
    (h : x.mapError MockError.evaluation = .ok v) : x = .ok v := by
  cases x with
  | error => cases h
  | ok w =>
    cases h
    rfl

lemma result_callScope {s : Scope} (h : Builtin.callScope s a = .ok m) : Result object a m := by
  unfold Builtin.callScope at h
  split at h
  · cases h
    exact .scope s
  · contradiction

/-- Only here does the result depend on what the arguments are. -/
lemma result_callGetattr (h : Builtin.callGetattr a = .ok m) : Result object a m := by
  unfold Builtin.callGetattr at h
  split at h
  · contradiction
  · next n key hpair =>
    split at h
    · contradiction
    · refine .member (n := n) ?_ (member_of_getAttr h)
      unfold Arguments.pair? at hpair
      split at hpair
      · next hpositional _ =>
        cases hpair
        exact hpositional ▸ List.mem_cons_self
      · contradiction

lemma result_callDir (h : Builtin.callDir a = .ok m) : Result object a m := by
  unfold Builtin.callDir at h
  split at h
  · contradiction
  · exact .value (.names _) h

lemma result_callImport (h : Builtin.callImport a = .ok (some m)) : Result object a m := by
  unfold Builtin.callImport at h
  split at h
  · contradiction
  · obtain ⟨l, -, rfl⟩ := Option.map_eq_some_iff.mp (Except.ok.inj h)
    exact .library l

lemma result_callFloat (h : Builtin.callFloat a = .ok m) : Result object a m := by
  have float {x : Except MockError Float} (h : (x >>= fun x => ofValue (.float x)) = .ok m) :
      Result object a m :=
    result_of_bind (fun _ _ => .value (.float _)) h
  unfold Builtin.callFloat at h
  refine result_of_bind (fun _ _ hf => ?_) h
  dsimp only at hf
  split at hf
  · exact float hf
  · exact float hf
  · exact float hf
  · exact float hf

lemma result_callStr (h : Builtin.callStr a = .ok m) : Result object a m :=
  result_of_bind (fun _ _ => .value (.str _)) h

lemma result_callBool (h : Builtin.callBool a = .ok m) : Result object a m :=
  result_of_bind (fun _ _ => .value (.bool _)) h

lemma result_callCompile (h : Builtin.callCompile a = .ok m) : Result object a m := by
  unfold Builtin.callCompile at h
  split at h
  · cases h
    exact .code _
  · split at h
    · cases h
      exact .code _
    · contradiction
  · contradiction

lemma result_callUnhexlify (h : Builtin.callUnhexlify a = .ok m) : Result object a m := by
  unfold Builtin.callUnhexlify at h
  split at h
  · contradiction
  · split at h
    · contradiction
    · split at h
      · exact .value (.bytes _) h
      · contradiction

lemma result_builtinCall {b : Builtin} (h : b.call a = .ok (some m)) : Result object a m := by
  cases b with
  | globals | locals | vars => exact result_of_map (fun _ => result_callScope) h
  | getattr => exact result_of_map (fun _ => result_callGetattr) h
  | dir => exact result_of_map (fun _ => result_callDir) h
  | importModule => exact result_callImport h
  | float => exact result_of_map (fun _ => result_callFloat) h
  | str => exact result_of_map (fun _ => result_callStr) h
  | bool => exact result_of_map (fun _ => result_callBool) h
  | compile => exact result_of_map (fun _ => result_callCompile) h
  | unhexlify => exact result_of_map (fun _ => result_callUnhexlify) h
  | exec | eval => contradiction

lemma computed_callJoin {name separator : String}
    (h : Method.callJoin name separator a = .ok v) : Computed object v := by
  unfold Method.callJoin at h
  split at h
  · split at h
    · cases h
      exact .str _
    · contradiction
  · contradiction

lemma computed_callIndex {name : String} {items : List Value}
    (h : Method.callIndex name items a = .ok v) : Computed object v := by
  unfold Method.callIndex at h
  split at h
  · contradiction
  · split at h
    · cases h
      exact .int _
    · contradiction

lemma computed_callGetItem {name : String} {receiver : Value} {f : Method}
    (h : Method.callGetItem name receiver a = .ok v) : Computed (.method receiver f) v := by
  unfold Method.callGetItem at h
  split at h
  · contradiction
  · exact .item (ok_of_mapError h)

lemma computed_callDecode {name : String} {b : Bytes}
    (h : Method.callDecode name b a = .ok v) : Computed object v := by
  unfold Method.callDecode at h
  split at h
  · contradiction
  · split at h
    · cases h
      exact .str _
    · contradiction

lemma result_methodCall {f : Method} {receiver : Value} (h : f.call receiver a = .ok m) :
    Result (.method receiver f) a m := by
  have given {x : Except MockError Value}
      (hx : ∀ v, x = .ok v → Computed (.method receiver f) v) (h : (x >>= ofValue) = .ok m) :
      Result (.method receiver f) a m :=
    result_of_bind (fun v hv => .value (hx v hv)) h
  unfold Method.call at h
  dsimp only at h
  split at h
  · exact given (fun _ => computed_callJoin) h
  · exact given (fun _ => computed_callIndex) h
  · exact given (fun _ => computed_callGetItem) h
  · exact given (fun _ hv => .unary (ok_of_mapError hv)) h
  · exact given (fun _ hv => .unary (ok_of_mapError hv)) h
  · exact given (fun _ => computed_callDecode) h
  · contradiction

/-- All that a call can give. -/
theorem result_of_call (h : object.call a = .ok (some m)) : Result object a m := by
  cases object with
  | builtin b =>
    simp only [call] at h
    split at h
    · exact result_builtinCall h
    · contradiction
  | method receiver f => exact result_of_map (fun _ => result_methodCall) h
  | getter s =>
    cases h
    exact .scope s
  | value | code | library | scope | unknown => contradiction

end Unmask.Mock
