import Unmask.Proofs.CallFolding
import Unmask.Proofs.CallResolving
import Unmask.Proofs.ForeignNames
import Unmask.Resolve.Program

/-!
# Opaque calls

Calls of a function that nothing is known of are what an obfuscated program does in the end. A run
neither loses nor doubles them nor changes their order: each one stays where it is, with its
arguments resolved under the names that are bound where the run comes to it. The function must not
be one of those that are known, `unhexlify` included: that one has no name of its own in a program,
but it is written as one. The cleanup keeps the calls as well, as long as no name is bound to an
unknown object that goes by the name of the function.
-/
namespace Unmask

/-- Where there are no steps, what can be said is what holds. -/
def Judgement.plain : Judgement Id where
  Holds x Q := Q x
  pure h := h
  bind hx hf := hf _ hx

/-- A foreign name is not bound, and no name is bound to an unknown object that goes by it. -/
structure Namespace.Spares (ns : Namespace) (id : String) : Prop where
  foreign : Foreign id
  unbound : ns.local? id = none
  spared : ∀ name, ns.local? name ≠ some (.unknown id)

namespace Namespace

variable {ns : Namespace} {id : String}

lemma cleanup_map (ns : Namespace) (es : List Expr) :
    ns.cleanup.onExprs es = es.map ns.cleanup.onExpr := by
  induction es with
  | nil => rfl
  | cons e rest ih => exact congrArg (ns.cleanup.onExpr e :: ·) ih

lemma cleanup_mapKeywords (ns : Namespace) (ks : List Keyword) :
    ns.cleanup.onKeywords ks = ks.map fun k => ⟨k.arg, ns.cleanup.onExpr k.value⟩ := by
  induction ks with
  | nil => rfl
  | cons k rest ih =>
    obtain ⟨arg, value⟩ := k
    exact congrArg (⟨arg, ns.cleanup.onExpr value⟩ :: ·) ih

lemma substitute_sites (h : Foreign id) (name : String) : (ns.substitute name).sites id = [] := by
  unfold substitute
  split
  · exact h.revert_sites _
  · rfl

/-- The foreign name itself stays, and nothing else becomes it. -/
lemma cleanup_name_iff (h : ns.Spares id) (e : Expr) :
    ns.cleanup.onExpr e = .name id ↔ e = .name id := by
  cases e with
  | name name =>
    show ns.substitute name = .name id ↔ _
    unfold substitute
    split
    · next m hm =>
      have hne : m ≠ .unknown id := by
        rintro rfl
        exact h.spared name hm
      have hname : name ≠ id := by
        rintro rfl
        rw [h.unbound] at hm
        contradiction
      exact iff_of_false (h.foreign.revert_ne hne) fun heq => hname (Expr.name.inj heq)
    · rfl
  | _ => exact iff_of_false (by rintro ⟨⟩) (by rintro ⟨⟩)

mutual

/-- Every expression keeps its calls of the foreign name. -/
theorem cleanup_expr (h : ns.Spares id) (e : Expr) :
    Alike ns.cleanup.onExpr (e.sites id) ((ns.cleanup.onExpr e).sites id) := by
  cases e with
  | name name =>
    show Alike _ [] ((ns.substitute name).sites id)
    rw [substitute_sites h.foreign]
    exact .nil
  | constant | verbatim => exact .nil
  | call func args keywords =>
    refine Alike.append ?_ (((cleanup_expr h func).append (cleanup_exprs h args)).append
      (cleanup_keywords h keywords))
    rw [cleanup_map, cleanup_mapKeywords]
    exact Alike.site (cleanup_name_iff h func)
  | «attribute» value _ | unary _ value | lambda _ value | named _ value | starred value
  | await value => exact cleanup_expr h value
  | subscript left right | binary left _ right =>
    exact (cleanup_expr h left).append (cleanup_expr h right)
  | slice lower upper step =>
    exact ((cleanup_option h lower).append (cleanup_option h upper)).append (cleanup_option h step)
  | bool _ items | list items | tuple items | «set» items => exact cleanup_exprs h items
  | compare left _ comparators =>
    exact (cleanup_expr h left).append (cleanup_exprs h comparators)
  | conditional test body orelse =>
    exact ((cleanup_expr h test).append (cleanup_expr h body)).append (cleanup_expr h orelse)
  | dict keys values => exact (cleanup_options h keys).append (cleanup_exprs h values)
  | listComp elt generators | setComp elt generators | generator elt generators =>
    exact (cleanup_expr h elt).append (cleanup_comprehensions h generators)
  | dictComp key value generators =>
    exact ((cleanup_expr h key).append (cleanup_expr h value)).append
      (cleanup_comprehensions h generators)

theorem cleanup_target (h : ns.Spares id) (goal : Expr) :
    Alike ns.cleanup.onExpr (goal.targetSites id) ((ns.cleanup.onTarget goal).targetSites id) := by
  cases goal with
  | tuple items | list items => exact cleanup_targets h items
  | starred value => exact cleanup_target h value
  | subscript value slice => exact (cleanup_expr h value).append (cleanup_expr h slice)
  | «attribute» value _ => exact cleanup_expr h value
  | _ => exact Alike.targets _

theorem cleanup_option (h : ns.Spares id) (o : Option Expr) :
    Alike ns.cleanup.onExpr (Expr.sitesOption id o)
      (Expr.sitesOption id (ns.cleanup.onOption o)) := by
  cases o with
  | none => exact .nil
  | some e => exact cleanup_expr h e

theorem cleanup_options (h : ns.Spares id) (os : List (Option Expr)) :
    Alike ns.cleanup.onExpr (Expr.sitesOptions id os)
      (Expr.sitesOptions id (ns.cleanup.onOptions os)) := by
  cases os with
  | nil => exact .nil
  | cons o rest => exact (cleanup_option h o).append (cleanup_options h rest)

theorem cleanup_exprs (h : ns.Spares id) (es : List Expr) :
    Alike ns.cleanup.onExpr (Expr.sitesList id es)
      (Expr.sitesList id (ns.cleanup.onExprs es)) := by
  cases es with
  | nil => exact .nil
  | cons e rest => exact (cleanup_expr h e).append (cleanup_exprs h rest)

theorem cleanup_targets (h : ns.Spares id) (goals : List Expr) :
    Alike ns.cleanup.onExpr (Expr.targetSitesList id goals)
      (Expr.targetSitesList id (ns.cleanup.onTargets goals)) := by
  cases goals with
  | nil => exact .nil
  | cons goal rest => exact (cleanup_target h goal).append (cleanup_targets h rest)

theorem cleanup_keyword (h : ns.Spares id) (k : Keyword) :
    Alike ns.cleanup.onExpr (k.sites id) ((ns.cleanup.onKeyword k).sites id) := by
  obtain ⟨_, value⟩ := k
  exact cleanup_expr h value

theorem cleanup_keywords (h : ns.Spares id) (ks : List Keyword) :
    Alike ns.cleanup.onExpr (Keyword.sitesList id ks)
      (Keyword.sitesList id (ns.cleanup.onKeywords ks)) := by
  cases ks with
  | nil => exact .nil
  | cons k rest => exact (cleanup_keyword h k).append (cleanup_keywords h rest)

theorem cleanup_comprehension (h : ns.Spares id) (g : Comprehension) :
    Alike ns.cleanup.onExpr (g.sites id) ((ns.cleanup.onComprehension g).sites id) := by
  obtain ⟨goal, iter, ifs, _⟩ := g
  exact ((cleanup_target h goal).append (cleanup_expr h iter)).append (cleanup_exprs h ifs)

theorem cleanup_comprehensions (h : ns.Spares id) (gs : List Comprehension) :
    Alike ns.cleanup.onExpr (Comprehension.sitesList id gs)
      (Comprehension.sitesList id (ns.cleanup.onComprehensions gs)) := by
  cases gs with
  | nil => exact .nil
  | cons g rest => exact (cleanup_comprehension h g).append (cleanup_comprehensions h rest)

end

end Namespace

namespace Session
open Resolve

variable {id : String} {s : Session} {m : Module}

/-- The calls of a name in a program, each with the names that are bound where a run from `s` comes
to it. -/
def calls (s : Session) (id : String) (m : Module) : List (Namespace × Site) :=
  Stmt.placesList s.namesAfter id s.names m

/-- What becomes of an expression that a run from `s` to `t` comes to with some names bound: it is
resolved with these, and cleaned with those that are bound in the end. -/
def becomes (s t : Session) (ns : Namespace) (e : Expr) : Expr :=
  t.names.cleanup.onExpr (s.foldedWith ns e)

end Session

end Unmask
