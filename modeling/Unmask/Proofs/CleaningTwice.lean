import Unmask.Proofs.Substitution
import Unmask.Resolve.Program

/-!
# Cleaning twice

The cleanup is a substitution, and what it puts in place of a name may have a name in it: that of
the function that a known object is written with. A second cleanup substitutes in what the first
one put there, so it changes nothing in any program if and only if none of these names is bound to
something that is written otherwise.
-/
namespace Unmask

/-- The name that a mock is written with. -/
def Mock.writtenName? : Mock → Option String
  | .value _ _ => none
  | .code _ => some Builtin.compile.name
  | .builtin b => some b.name
  | .library _ => some Builtin.importModule.name
  | .scope s => some s.name
  | .getter s => some s.name
  | .method _ _ => none
  | .unknown name => some name

namespace Namespace

variable {ns : Namespace}

/-- The name that a bound mock is written with is bound, if at all, to what is written as the name
itself. -/
def Settled (ns : Namespace) : Prop :=
  ∀ id m name, ns.local? id = some m → m.writtenName? = some name →
    ∀ bound, ns.local? name = some bound → bound.revert = .name name

lemma cleanup_eq (ns : Namespace) : ns.cleanup = Fold.substituting ns.substitute := rfl

/-- A name stays if what it is bound to is written as the name. -/
lemma substitute_eq_name_iff {name : String} :
    ns.substitute name = .name name ↔ ∀ m, ns.local? name = some m → m.revert = .name name := by
  unfold substitute
  split
  · next m hm =>
    constructor
    · rintro h m' hm'
      rw [hm] at hm'
      cases hm'
      exact h
    · exact fun h => h m hm
  · next hnone =>
    refine iff_of_true rfl fun m hm => ?_
    rw [hnone] at hm
    contradiction

mutual

/-- The literal of a value has no names in it. -/
lemma substituting_value (σ : String → Expr) (v : Value) :
    (Fold.substituting σ).onExpr v.toExpr = v.toExpr := by
  cases v with
  | list items => exact congrArg Expr.list (substituting_values σ items)
  | _ => rfl

lemma substituting_values (σ : String → Expr) (items : List Value) :
    (Fold.substituting σ).onExprs (Value.toExprs items) = Value.toExprs items := by
  cases items with
  | nil => rfl
  | cons v rest =>
    exact congrArg₂ List.cons (substituting_value σ v) (substituting_values σ rest)

end

/-- A mock that is written with a name stays as it is written if the name stays. -/
lemma cleanup_written {m : Mock} {name : String} (h : m.writtenName? = some name) :
    ns.cleanup.onExpr m.revert = m.revert ↔ ns.substitute name = .name name := by
  have hcall (args : List Expr) :
      Expr.call (ns.substitute name) args [] = .call (.name name) args [] ↔
        ns.substitute name = .name name :=
    ⟨fun heq => (Expr.call.inj heq).1, congrArg (Expr.call · args [])⟩
  cases m with
  | value | method => contradiction
  | builtin | unknown =>
    cases h
    rfl
  | code | library | scope =>
    cases h
    exact hcall _
  | getter s =>
    cases h
    constructor
    · exact fun heq => (hcall []).mp (Expr.lambda.inj heq).2
    · exact fun heq => congrArg (Expr.lambda "*_") ((hcall []).mpr heq)

/-- A mock that is written without a name stays as it is written. -/
lemma cleanup_unwritten {m : Mock} (h : m.writtenName? = none) :
    ns.cleanup.onExpr m.revert = m.revert := by
  cases m with
  | value _ v => exact substituting_value ns.substitute v
  | method receiver f =>
    exact congrArg (Expr.attribute · f.name) (substituting_value ns.substitute receiver)
  | _ => contradiction

/-- What was put in place of a name stays. -/
lemma Settled.cleanup_substitute (h : ns.Settled) (id : String) :
    ns.cleanup.onExpr (ns.substitute id) = ns.substitute id := by
  cases hid : ns.local? id with
  | none =>
    have hname : ns.substitute id = .name id := by rw [substitute, hid]
    rw [hname]
    exact hname
  | some m =>
    have hrevert : ns.substitute id = m.revert := by rw [substitute, hid]
    rw [hrevert]
    cases hname : m.writtenName? with
    | none => exact cleanup_unwritten hname
    | some name =>
      have hstays := substitute_eq_name_iff.mpr (h id m name hid hname)
      exact (cleanup_written hname).mpr hstays

/-- A second cleanup changes no program if and only if every name that a bound object is written
with is bound to nothing or to what is written as that name. -/
theorem clean_clean_iff (ns : Namespace) :
    (∀ m : Module, (m.clean ns).clean ns = m.clean ns) ↔ ns.Settled := by
  constructor
  · intro h id m name hid hname
    have htwice : [Stmt.expr (ns.cleanup.onExpr (ns.substitute id))] =
        [Stmt.expr (ns.substitute id)] := h [.expr (.name id)]
    have hrevert : ns.substitute id = m.revert := by rw [substitute, hid]
    rw [hrevert] at htwice
    have hstays := Stmt.expr.inj (List.cons.inj htwice).1
    exact substitute_eq_name_iff.mp ((cleanup_written hname).mp hstays)
  · intro h m
    have hsame : Fold.andThen ns.substitute ns.substitute = ns.substitute :=
      funext h.cleanup_substitute
    calc (m.clean ns).clean ns
        = (Fold.substituting (Fold.andThen ns.substitute ns.substitute)).onBody m :=
          Fold.onBody_substituting ns.substitute ns.substitute m
      _ = m.clean ns := by rw [hsame]; rfl

/-- `x`, `globals()['x'] = str` and `globals()['str'] = 1`: the first cleanup puts `str` in place of
`x`, and the second one puts `1` in place of that. -/
theorem clean_rebound_function :
    let s := Session.start .empty
    let write (key : String) (value : Expr) : Stmt :=
      .assign [.subscript (.apply (.name "globals") []) (.str key)] value
    let m : Module := [.expr (.name "x"), write "x" (.name "str"), write "str" (.int 1)]
    let ns := (s.transform m).2.names
    let cleaned := (s.transform m).1.clean ns
    cleaned = [.expr (.name "str")] ∧ cleaned.clean ns = [.expr (.int 1)] ∧
      cleaned.clean ns ≠ cleaned := by
  have hne : [Stmt.expr (.int 1)] ≠ [Stmt.expr (.name "str")] := nofun
  exact ⟨rfl, rfl, hne⟩

end Namespace
end Unmask
