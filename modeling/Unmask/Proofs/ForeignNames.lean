import Unmask.Proofs.CallSites
import Unmask.Proofs.MockResults
import Unmask.Resolve.Expression

/-!
# Foreign names

A name is foreign if nothing that is known is written with it: it is not one of the names that every
program has, nor `unhexlify`, which a known function is written as wherever it came from. What is
known is then never written as the name or as a call of it, unless it is an object that is not known
and goes by that name; and no such object comes out of a member, an item or a call.
-/
namespace Unmask

structure Foreign (id : String) : Prop where
  base : Mock.ofBaseName? id = none
  modelled : id ≠ Builtin.unhexlify.name

variable {id : String}

/-- No function that is known goes by a foreign name. -/
theorem Foreign.builtin (h : Foreign id) (b : Builtin) : b.name ≠ id := by
  rintro rfl
  have hbase := h.base
  cases b with
  | unhexlify => exact h.modelled rfl
  | _ => exact absurd hbase (by decide)

theorem Foreign.scope (h : Foreign id) (s : Scope) : s.name ≠ id := by
  cases s with
  | globals => exact h.builtin .globals
  | locals => exact h.builtin .locals
  | vars => exact h.builtin .vars

lemma siteOf_other {func : String} (h : func ≠ id) (args : List Expr) (keywords : List Keyword) :
    siteOf id (.call (.name func) args keywords) = [] :=
  if_neg fun hcall => h (Expr.name.inj (isCallOf_iff.mp hcall))

mutual

lemma sites_value (v : Value) : v.toExpr.sites id = [] := by
  cases v with
  | list items => exact sites_values items
  | _ => rfl

lemma sites_values (items : List Value) : Expr.sitesList id (Value.toExprs items) = [] := by
  cases items with
  | nil => rfl
  | cons v rest =>
    rw [Value.toExprs, Expr.sitesList, sites_value v, sites_values rest]
    rfl

end

/-- A mock is written without a call of a foreign name. -/
theorem Foreign.revert_sites (h : Foreign id) (m : Mock) : m.revert.sites id = [] := by
  cases m with
  | value _ v => exact sites_value v
  | code source =>
    rw [Mock.revert, Expr.apply, Expr.sites, siteOf_other (h.builtin .compile)]
    rfl
  | library l =>
    rw [Mock.revert, Expr.apply, Expr.sites, siteOf_other (h.builtin .importModule)]
    rfl
  | scope s =>
    rw [Mock.revert, Expr.apply, Expr.sites, siteOf_other (h.scope s)]
    rfl
  | getter s =>
    rw [Mock.revert, Expr.apply, Expr.sites, Expr.sites, siteOf_other (h.scope s)]
    rfl
  | method receiver _ => exact sites_value receiver
  | builtin | unknown => rfl

/-- A mock is written as a foreign name only if it is an unknown object that goes by it. -/
theorem Foreign.revert_ne (h : Foreign id) {m : Mock} (hm : m ≠ .unknown id) :
    m.revert ≠ .name id := by
  cases m with
  | value _ v => cases v <;> nofun
  | builtin b => exact fun heq => h.builtin b (Expr.name.inj heq)
  | unknown name => exact fun heq => hm (congrArg Mock.unknown (Expr.name.inj heq))
  | code | library | scope | getter | method => nofun

/-- A mock is something that is known. -/
def Mock.Known (m : Mock) : Prop := ∀ name, m ≠ .unknown name

namespace Mock

lemma known_ofValue {v : Value} {m : Mock} (h : Mock.ofValue v = .ok m) : m.Known := by
  cases v with
  | none => cases h
  | _ =>
    cases h
    exact fun _ => nofun

lemma Basic.known {m : Mock} (h : Basic m) : m.Known := by
  cases h with
  | bool | builtin => exact fun _ => nofun

lemma Member.known {object m : Mock} (h : Member object m) : m.Known := by
  cases h with
  | basic h => exact h.known
  | method => exact fun _ => nofun

lemma known_ofBaseName? {name : String} {m : Mock} (h : ofBaseName? name = some m) : m.Known :=
  (basic_of_ofBaseName? h).known

/-- Members are known. -/
theorem known_getAttr {object m : Mock} {attr : String} (h : object.getAttr attr = .ok m) :
    m.Known :=
  (member_of_getAttr h).known

/-- Results of calls are known. -/
theorem known_call {m result : Mock} {a : Arguments} (h : m.call a = .ok (some result)) :
    result.Known := by
  cases result_of_call h with
  | value _ hresult => exact known_ofValue hresult
  | member _ hmember => exact hmember.known
  | code | library | scope => exact fun _ => nofun

end Mock
end Unmask
