import Unmask.Proofs.MethodArguments
import Unmask.Proofs.WrittenMocks

/-!
# Equality of mocks

Two mocks are taken for the same when tag and payload are. What a mock does is told by its handle
too: functions have no payload, and the methods of a value all hold that value. So one of two equal
mocks stands in for the other only if their handles are the same, unknown objects have one name, and
no zero differs from another in its sign.
-/
namespace Unmask

/-- The sort of an error, without the names that it gives. -/
inductive MockErrorKind where
  | notCallable | keyNotFound | attributeNotFound | unsupportedKind | invalidArguments
  | evaluation (error : EvalError)
  deriving DecidableEq

def MockError.kind : MockError → MockErrorKind
  | .notCallable _ => .notCallable
  | .keyNotFound _ _ => .keyNotFound
  | .attributeNotFound _ _ => .attributeNotFound
  | .unsupportedKind _ => .unsupportedKind
  | .invalidArguments _ _ => .invalidArguments
  | .evaluation error => .evaluation error

/-- Two outcomes are the same result or errors of one sort. -/
inductive Agree {α : Type} : Except MockError α → Except MockError α → Prop where
  | ok (result : α) : Agree (.ok result) (.ok result)
  | error {e e' : MockError} (h : e.kind = e'.kind) : Agree (.error e) (.error e')

lemma Agree.refl {α : Type} (x : Except MockError α) : Agree x x := by
  cases x with
  | ok result => exact .ok result
  | error e => exact .error rfl

namespace Mock

/-- Nothing that can be asked of a mock tells two of them apart. -/
structure Interchangeable (a b : Mock) : Prop where
  hasBehaviour : a.hasBehaviour = b.hasBehaviour
  members : a.members = b.members
  getAttr : ∀ attr, Agree (a.getAttr attr) (b.getAttr attr)
  call : ∀ arguments, Agree (a.call arguments) (b.call arguments)
  getItem : ∀ key ns, Agree (a.getItem key ns) (b.getItem key ns)
  revert : a.revert = b.revert

variable {a b : Mock}

lemma Interchangeable.refl (a : Mock) : a.Interchangeable a :=
  ⟨rfl, rfl, fun _ => Agree.refl _, fun _ => Agree.refl _, fun _ _ => Agree.refl _, rfl⟩

/-- The name under which a value is shown is told by errors only. -/
lemma interchangeable_value (name shown : String) (v : Value) :
    (value name v).Interchangeable (value shown v) where
  hasBehaviour := rfl
  members := rfl
  getAttr attr := by
    unfold Mock.getAttr
    dsimp only
    split
    · exact .ok _
    · exact .error rfl
  call _ := .error rfl
  getItem _ _ := .error rfl
  revert := rfl

/-- Only values are written as literals. -/
lemma ofExpr?_revert (m : Mock) : Value.ofExpr? m.revert = m.own? := by
  cases m with
  | value _ v => exact Value.ofExpr?_toExpr v
  | _ => rfl

lemma builtin_of_name {x y : Builtin} (h : x.name = y.name) : x = y :=
  Option.some.inj (by rw [← Builtin.ofName?_name, h, Builtin.ofName?_name])

lemma library_of_name {l k : Library} (h : l.name = k.name) : l = k :=
  Option.some.inj (by rw [← Library.ofName?_name, h, Library.ofName?_name])

lemma scope_of_name {s t : Scope} (h : s.name = t.name) : s = t :=
  Option.some.inj (by rw [← Scope.ofName?_name, h, Scope.ofName?_name])

lemma method_of_name {f g : Method} (h : f.name = g.name) : f = g := by
  revert h
  cases f <;> cases g <;> decide +kernel

lemma scope_of_revert {s t : Scope} (h : (scope s).revert = (scope t).revert) : s = t :=
  scope_of_name (Expr.name.inj (Expr.call.inj h).1)

lemma exists_value_of_own? {v : Value} (h : a.own? = some v) : ∃ name, a = .value name v := by
  cases a with
  | value name w =>
    cases h
    exact ⟨name, rfl⟩
  | _ => cases h

/-- An object that is no value is known by its tag and how it is written. -/
lemma eq_of_revert (htag : a.tag = b.tag) (h : a.revert = b.revert) (ha : a.own? = none) :
    b = a := by
  have hb : b.own? = none := by rw [← ofExpr?_revert, ← h, ofExpr?_revert, ha]
  cases a with
  | value => cases ha
  | code source =>
    cases b with
    | code other =>
      cases h
      rfl
    | value => cases hb
    | _ => cases htag
  | builtin x =>
    cases b with
    | builtin y =>
      cases builtin_of_name (Expr.name.inj h)
      rfl
    | value => cases hb
    | getter | method => cases h
    | _ => cases htag
  | library l =>
    cases b with
    | library k =>
      have htext := List.head_eq_of_cons_eq (Expr.call.inj h).2.1
      cases library_of_name (Constant.str.inj (Expr.constant.inj htext))
      rfl
    | scope => cases (Expr.call.inj h).2.1
    | value => cases hb
    | _ => cases htag
  | scope s =>
    cases b with
    | scope t =>
      cases scope_of_revert h
      rfl
    | library => cases (Expr.call.inj h).2.1
    | value => cases hb
    | _ => cases htag
  | getter s =>
    cases b with
    | getter t =>
      cases scope_of_revert (Expr.lambda.inj h).2
      rfl
    | value => cases hb
    | builtin | method => cases h
    | _ => cases htag
  | method receiver f =>
    cases b with
    | method other g =>
      obtain ⟨hreceiver, hname⟩ := Expr.attribute.inj h
      have heq : some receiver = some other := by
        rw [← Value.ofExpr?_toExpr, hreceiver, Value.ofExpr?_toExpr]
      cases heq
      cases method_of_name hname
      rfl
    | value => cases hb
    | builtin | getter => cases h
    | _ => cases htag
  | unknown name =>
    cases b with
    | unknown shown =>
      cases h
      rfl
    | value => cases hb
    | _ => cases htag

/-- Two mocks of one sort that are written alike stand for the same object. -/
lemma denotes_of_revert (htag : a.tag = b.tag) (h : a.revert = b.revert) :
    a.Denotes b ∧ ∀ name, a = .unknown name → b = a := by
  have hown : a.own? = b.own? := by rw [← ofExpr?_revert, h, ofExpr?_revert]
  cases ha : a.own? with
  | none =>
    obtain rfl := eq_of_revert htag h ha
    exact ⟨⟨rfl, rfl, rfl⟩, fun _ _ => rfl⟩
  | some v =>
    obtain ⟨name, rfl⟩ := exists_value_of_own? ha
    obtain ⟨shown, rfl⟩ := exists_value_of_own? (hown.symm.trans ha)
    exact ⟨⟨rfl, rfl, rfl⟩, nofun⟩

/-- Mocks of one object are interchangeable unless it is unknown under different names. -/
lemma Denotes.interchangeable (h : a.Denotes b) (hunknown : ∀ name, a = .unknown name → b = a) :
    a.Interchangeable b := by
  obtain ⟨htag, hpayload, hhandle⟩ := h
  cases a with
  | value name v =>
    cases b with
    | value shown w =>
      cases hpayload
      exact interchangeable_value name shown v
    | code source =>
      cases hpayload
      cases htag
    | unknown => cases hpayload
    | _ => cases hhandle
  | code source =>
    cases b with
    | code other =>
      cases hpayload
      exact .refl _
    | value shown w =>
      cases hpayload
      cases htag
    | unknown => cases hpayload
    | _ => cases hhandle
  | method receiver f =>
    cases b with
    | method other g =>
      cases hpayload
      cases hhandle
      exact .refl _
    | _ => cases hhandle
  | unknown name =>
    rw [hunknown name rfl]
    exact .refl _
  | builtin | library | scope | getter =>
    cases b <;> cases hhandle
    exact .refl _

/-- What is taken for the same has the same tag and the same payload. -/
lemma same_spec (h : a.same b = true) :
    a.tag = b.tag ∧ ∀ v, a.payload? = some v → ∃ w, b.payload? = some w ∧ v.same w = true := by
  obtain ⟨htag, hpayload⟩ := Bool.and_eq_true_iff.mp h
  refine ⟨eq_of_beq htag, fun v hv => ?_⟩
  rw [hv] at hpayload
  cases hw : b.payload? with
  | none =>
    rw [hw] at hpayload
    contradiction
  | some w =>
    rw [hw] at hpayload
    exact ⟨w, rfl, hpayload⟩

lemma ofKind_ne_callable (k : Kind) : Tag.ofKind k ≠ .callable := by
  cases k <;> decide

/-- A mock with a value stands for no other object. -/
lemma handle?_of_value {v w : Value} (hv : a.value? = some v) (hw : b.payload? = some w)
    (htag : a.tag = b.tag) : b.handle? = a.handle? := by
  have hnone : a.handle? = none := by
    cases a with
    | value | code => rfl
    | _ => cases hv
  have hcallable : b.tag ≠ .callable := by
    rw [← htag]
    cases a with
    | value _ v => exact ofKind_ne_callable v.kind
    | code => exact nofun
    | _ => cases hv
  rw [hnone]
  cases b with
  | value | code | unknown => rfl
  | method => exact absurd rfl hcallable
  | _ => cases hw

/-- Mocks that are taken for the same are interchangeable if and only if they stand for the same
object and, if it is unknown, have the same name. They are if they have a value without floats. -/
theorem interchangeable_iff (h : a.same b = true) :
    (a.Interchangeable b ↔ a.Denotes b ∧ ∀ name, a = .unknown name → b = a) ∧
      ∀ v, a.value? = some v → v.FloatFree → a.Interchangeable b := by
  obtain ⟨htag, hpayload⟩ := same_spec h
  refine ⟨⟨fun hall => denotes_of_revert htag hall.revert, fun ⟨hdenotes, hunknown⟩ =>
    hdenotes.interchangeable hunknown⟩, fun v hv hfree => ?_⟩
  have hown : a.payload? = some v := by
    cases a with
    | value | code => exact hv
    | _ => cases hv
  obtain ⟨w, hw, hsame⟩ := hpayload v hown
  rw [(hfree.same_iff w).mp hsame] at hown
  refine Denotes.interchangeable ⟨htag.symm, hw.trans hown.symm, handle?_of_value hv hw htag⟩ ?_
  rintro name rfl
  cases hv

/-- The truth value that every program can name and one that is computed. -/
theorem interchangeable_truth :
    (value "True" (.bool true)).same (value "bool" (.bool true)) = true ∧
      (value "True" (.bool true)).Interchangeable (value "bool" (.bool true)) := by
  have hsame : (value "True" (.bool true)).same (value "bool" (.bool true)) = true := by decide
  exact ⟨hsame, (interchangeable_iff hsame).2 _ rfl (.bool true)⟩

/-- Two methods of a list are taken for the same because they hold the same list. -/
theorem methods_taken_for_same :
    let items := value "list" (.list [.int 1])
    ∃ a b, items.getAttr "index" = .ok a ∧ items.getAttr "__getitem__" = .ok b ∧
      a.same b = true ∧ ¬a.Interchangeable b := by
  refine ⟨.method (.list [.int 1]) .index, .method (.list [.int 1]) .getItem, ?_, ?_, ?_, ?_⟩
  · rfl
  · rfl
  · decide
  · intro hall
    have hname := (Expr.attribute.inj hall.revert).2
    exact absurd hname (by decide +kernel)

end Mock
end Unmask
