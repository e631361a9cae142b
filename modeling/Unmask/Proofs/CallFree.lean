import Unmask.Proofs.Nesting
import Unmask.Proofs.TreeWalks

/-!
# Programs without calls

Only a call can run a text, so a program without calls becomes the same at every depth, and leaves
the same issues and names behind.
-/
namespace Unmask

/-- Sessions that differ at most in the depth that was reached and in the texts that were begun. -/
structure Session.Like (s t : Session) : Prop where
  names : s.names = t.names
  issues : s.issues = t.issues

theorem Session.Like.refl (s : Session) : s.Like s := ⟨rfl, rfl⟩

theorem Session.like_inside (s : Session) : s.Like s.inside := ⟨rfl, rfl⟩

namespace Resolving

variable {α β : Type}

/-- A computation that does the same at every depth. -/
def Blind (x : Resolving α) : Prop := Respects Session.Like x

theorem blind_closed : Closed (Blind ·) :=
  respects_closed (fun _ _ h => h.names) fun _ _ _ h => ⟨h.names, congrArg (· ++ [_]) h.issues⟩

end Resolving

namespace Resolve
open Resolving

/-- Where no text can be run, everything does the same at every depth. -/
theorem blind_none : Run (Blind ·) none where
  closed := blind_closed
  expand := by rintro x ⟨⟩
  expandBody := by rintro x ⟨⟩
  binding name m s t h := ⟨rfl, congrArg (·.bind name m) h.names, h.issues⟩

/-- No call is among some expressions. -/
def NoCalls (es : List Expr) : Prop := ∀ func args keywords, .call func args keywords ∉ es

lemma noCalls_append {es rest : List Expr} :
    NoCalls (es ++ rest) ↔ NoCalls es ∧ NoCalls rest := by
  simp only [NoCalls, List.mem_append, not_or]
  exact ⟨fun h => ⟨fun f a k => (h f a k).1, fun f a k => (h f a k).2⟩,
    fun h f a k => ⟨h.1 f a k, h.2 f a k⟩⟩

lemma noCalls_visit {e : Expr} {es : List Expr} :
    NoCalls (visit (fun _ => true) e es) ↔ (∀ func args keywords, .call func args keywords ≠ e) ∧
      NoCalls es := by
  simp only [NoCalls, visit, if_true, List.mem_cons, not_or]
  exact ⟨fun h => ⟨fun f a k => (h f a k).1, fun f a k => (h f a k).2⟩,
    fun h f a k => ⟨h.1 f a k, h.2 f a k⟩⟩

variable (within within' : Option Expansion)

lemma subscript_same {within within' : Option Expansion} {value key : Expr}
    (hkey : ∀ lower upper step, key ≠ .slice lower upper step)
    (hvalue : expr within value = expr within' value) (hread : expr within key = expr within' key) :
    expr within (.subscript value key) = expr within' (.subscript value key) := by
  rw [expr_subscript hkey, expr_subscript hkey, hvalue, hread]

mutual

/-- An expression without calls resolves in the same way wherever texts can be run. -/
theorem expr_noCalls {e : Expr} (h : NoCalls (e.visited fun _ => true)) :
    expr within e = expr within' e := by
  cases e with
  | constant _ | name _ | verbatim _ => rw [expr, expr]
  | call func args keywords =>
    simp only [Expr.visited, noCalls_visit] at h
    exact absurd rfl (h.1 func args keywords)
  | subscript value key =>
    simp only [Expr.visited, noCalls_visit, noCalls_append] at h
    have ihvalue := expr_noCalls h.2.1
    cases key with
    | slice lower upper step =>
      simp only [Expr.visited, noCalls_visit, noCalls_append] at h
      obtain ⟨-, -, -, ⟨hlower, hupper⟩, hstep⟩ := h
      rw [expr, expr, ihvalue, option_noCalls hlower, option_noCalls hupper, option_noCalls hstep]
    | _ =>
      have ihkey := expr_noCalls h.2.2
      exact subscript_same nofun ihvalue ihkey
  | unary op value | «attribute» value _ | lambda _ value | named _ value | starred value
  | await value =>
    simp only [Expr.visited, noCalls_visit] at h
    have ihvalue := expr_noCalls h.2
    rw [expr, expr, ihvalue]
  | binary left op right =>
    simp only [Expr.visited, noCalls_visit, noCalls_append] at h
    have ihleft := expr_noCalls h.2.1
    have ihright := expr_noCalls h.2.2
    rw [expr, expr, ihleft, ihright]
  | bool _ items | list items | tuple items | «set» items =>
    simp only [Expr.visited, noCalls_visit] at h
    have ihitems := exprs_noCalls h.2
    rw [expr, expr, ihitems]
  | slice lower upper step =>
    simp only [Expr.visited, noCalls_visit, noCalls_append] at h
    have ihlower := option_noCalls h.2.1.1
    have ihupper := option_noCalls h.2.1.2
    have ihstep := option_noCalls h.2.2
    rw [expr, expr, ihlower, ihupper, ihstep]
  | compare left ops comparators =>
    simp only [Expr.visited, noCalls_visit, noCalls_append] at h
    have ihleft := expr_noCalls h.2.1
    have ihcomparators := exprs_noCalls h.2.2
    rw [expr, expr, ihleft, ihcomparators]
  | conditional test body orelse =>
    simp only [Expr.visited, noCalls_visit, noCalls_append] at h
    have ihtest := expr_noCalls h.2.1.1
    have ihbody := expr_noCalls h.2.1.2
    have ihorelse := expr_noCalls h.2.2
    rw [expr, expr, ihtest, ihbody, ihorelse]
  | dict keys values =>
    simp only [Expr.visited, noCalls_visit, noCalls_append] at h
    have ihkeys := options_noCalls h.2.1
    have ihvalues := exprs_noCalls h.2.2
    rw [expr, expr, ihkeys, ihvalues]
  | listComp elt generators | setComp elt generators | generator elt generators =>
    simp only [Expr.visited, noCalls_visit, noCalls_append] at h
    have ihelt := expr_noCalls h.2.1
    have ihgenerators := comprehensions_noCalls h.2.2
    rw [expr, expr, ihelt, ihgenerators]
  | dictComp key value generators =>
    simp only [Expr.visited, noCalls_visit, noCalls_append] at h
    have ihkey := expr_noCalls h.2.1.1
    have ihvalue := expr_noCalls h.2.1.2
    have ihgenerators := comprehensions_noCalls h.2.2
    rw [expr, expr, ihkey, ihvalue, ihgenerators]

theorem option_noCalls {o : Option Expr} (h : NoCalls (Expr.visitedOption (fun _ => true) o)) :
    option within o = option within' o := by
  cases o with
  | none => rfl
  | some e => rw [option, option, expr_noCalls h]

theorem options_noCalls {os : List (Option Expr)}
    (h : NoCalls (Expr.visitedOptions (fun _ => true) os)) :
    options within os = options within' os := by
  cases os with
  | nil => rfl
  | cons o rest =>
    simp only [Expr.visitedOptions, noCalls_append] at h
    rw [options, options, option_noCalls h.1, options_noCalls h.2]

theorem exprs_noCalls {es : List Expr} (h : NoCalls (Expr.visitedList (fun _ => true) es)) :
    exprs within es = exprs within' es := by
  cases es with
  | nil => rfl
  | cons e rest =>
    simp only [Expr.visitedList, noCalls_append] at h
    rw [exprs, exprs, expr_noCalls h.1, exprs_noCalls h.2]

theorem target_noCalls {goal : Expr} (h : NoCalls (goal.visited fun _ => true)) :
    target within goal = target within' goal := by
  cases goal with
  | tuple items | list items =>
    simp only [Expr.visited, noCalls_visit] at h
    rw [target, target, targets_noCalls h.2]
  | starred value =>
    simp only [Expr.visited, noCalls_visit] at h
    rw [target, target, target_noCalls h.2]
  | subscript value slice =>
    simp only [Expr.visited, noCalls_visit, noCalls_append] at h
    rw [target, target, expr_noCalls h.2.1, expr_noCalls h.2.2]
  | «attribute» value attr =>
    simp only [Expr.visited, noCalls_visit] at h
    rw [target, target, expr_noCalls h.2]
  | _ => simp only [target]

theorem targets_noCalls {goals : List Expr}
    (h : NoCalls (Expr.visitedList (fun _ => true) goals)) :
    targets within goals = targets within' goals := by
  cases goals with
  | nil => rfl
  | cons goal rest =>
    simp only [Expr.visitedList, noCalls_append] at h
    rw [targets, targets, target_noCalls h.1, targets_noCalls h.2]

theorem comprehension_noCalls {g : Comprehension}
    (h : NoCalls (Comprehension.visited (fun _ => true) g)) :
    comprehension within g = comprehension within' g := by
  obtain ⟨goal, iter, ifs, isAsync⟩ := g
  simp only [Comprehension.visited, noCalls_append] at h
  rw [comprehension, comprehension, expr_noCalls h.1.2, target_noCalls h.1.1, exprs_noCalls h.2]

theorem comprehensions_noCalls {gs : List Comprehension}
    (h : NoCalls (Comprehension.visitedList (fun _ => true) gs)) :
    comprehensions within gs = comprehensions within' gs := by
  cases gs with
  | nil => rfl
  | cons g rest =>
    simp only [Comprehension.visitedList, noCalls_append] at h
    rw [comprehensions, comprehensions, comprehension_noCalls h.1, comprehensions_noCalls h.2]

end

lemma onExpr_noCalls {e : Expr} (h : NoCalls (e.visited fun _ => true)) :
    (fold within).onExpr e = (fold within').onExpr e := by
  rw [onExpr_fold, onExpr_fold, expr_noCalls within within' h]

lemma onOption_noCalls {o : Option Expr} (h : NoCalls (Expr.visitedOption (fun _ => true) o)) :
    (fold within).onOption o = (fold within').onOption o := by
  cases o with
  | none => rfl
  | some e => rw [Fold.onOption, Fold.onOption, onExpr_noCalls within within' h]

lemma onExprs_noCalls {es : List Expr} (h : NoCalls (Expr.visitedList (fun _ => true) es)) :
    (fold within).onExprs es = (fold within').onExprs es := by
  induction es with
  | nil => rfl
  | cons e rest ih =>
    simp only [Expr.visitedList, noCalls_append] at h
    rw [Fold.onExprs, Fold.onExprs, onExpr_noCalls within within' h.1, ih h.2]

lemma onKeywords_noCalls {ks : List Keyword}
    (h : NoCalls (Keyword.visitedList (fun _ => true) ks)) :
    (fold within).onKeywords ks = (fold within').onKeywords ks := by
  induction ks with
  | nil => rfl
  | cons k rest ih =>
    obtain ⟨arg, value⟩ := k
    simp only [Keyword.visitedList, Keyword.visited, noCalls_append] at h
    rw [Fold.onKeywords, Fold.onKeywords, Fold.onKeyword, Fold.onKeyword,
      onExpr_noCalls within within' h.1, ih h.2]

mutual

lemma onTarget_noCalls {goal : Expr} (h : NoCalls (goal.visited fun _ => true)) :
    (fold within).onTarget goal = (fold within').onTarget goal := by
  cases goal with
  | tuple items | list items =>
    simp only [Expr.visited, noCalls_visit] at h
    rw [Fold.onTarget, Fold.onTarget, onTargets_noCalls h.2]
  | starred value =>
    simp only [Expr.visited, noCalls_visit] at h
    rw [Fold.onTarget, Fold.onTarget, onTarget_noCalls h.2]
  | subscript value slice =>
    simp only [Expr.visited, noCalls_visit, noCalls_append] at h
    rw [Fold.onTarget, Fold.onTarget, onExpr_noCalls within within' h.2.1,
      onExpr_noCalls within within' h.2.2]
  | «attribute» value attr =>
    simp only [Expr.visited, noCalls_visit] at h
    rw [Fold.onTarget, Fold.onTarget, onExpr_noCalls within within' h.2]
  | _ => simp only [Fold.onTarget]

lemma onTargets_noCalls {goals : List Expr}
    (h : NoCalls (Expr.visitedList (fun _ => true) goals)) :
    (fold within).onTargets goals = (fold within').onTargets goals := by
  cases goals with
  | nil => rfl
  | cons goal rest =>
    simp only [Expr.visitedList, noCalls_append] at h
    rw [Fold.onTargets, Fold.onTargets, onTarget_noCalls h.1, onTargets_noCalls h.2]

end

/-- No call is among some nodes. -/
def NoCallNodes (nodes : List Node) : Prop := NoCalls (Node.exprs nodes)

lemma noCallNodes_iff {nodes : List Node} :
    NoCallNodes nodes ↔ ∀ func args keywords, .expr (.call func args keywords) ∉ nodes := by
  have hmem (e : Expr) : e ∈ Node.exprs nodes ↔ .expr e ∈ nodes := by
    rw [Node.exprs, List.mem_filterMap]
    constructor
    · rintro ⟨node, hnode, heq⟩
      split at heq
      · cases heq
        exact hnode
      · cases heq
    · exact fun h => ⟨_, h, rfl⟩
  simp only [NoCallNodes, NoCalls, hmem]

lemma noCallNodes_append {nodes rest : List Node} :
    NoCallNodes (nodes ++ rest) ↔ NoCallNodes nodes ∧ NoCallNodes rest := by
  rw [NoCallNodes, Node.exprs, List.filterMap_append]
  exact noCalls_append

lemma noCallNodes_stmt {s : Stmt} {nodes : List Node} :
    NoCallNodes (.stmt s :: nodes) ↔ NoCallNodes nodes := Iff.rfl

lemma noCallNodes_ofExprs {es : List Expr} : NoCallNodes (Node.ofExprs es) ↔ NoCalls es := by
  rw [NoCallNodes, Node.exprs_ofExprs]

lemma assignStatement_noCalls {goal value : Expr} (hgoal : NoCalls (goal.visited fun _ => true))
    (hvalue : NoCalls (value.visited fun _ => true)) :
    assignStatement within goal value = assignStatement within' goal value := by
  unfold assignStatement
  rw [expr_noCalls within within' hvalue]
  cases goal with
  | subscript container key =>
    simp only [Expr.visited, noCalls_visit, noCalls_append] at hgoal
    simp only [expr_noCalls within within' hgoal.2.1, expr_noCalls within within' hgoal.2.2]
  | _ => simp only [target_noCalls within within' hgoal]

/-- A statement without calls is folded in the same way, whatever its parts become. -/
lemma stmt_noCalls {s : Stmt} (h : NoCallNodes (s.visited fun _ => true)) (walk : Resolving Stmt) :
    (fold within).stmt s walk = (fold within').stmt s walk := by
  simp only [fold]
  split
  · next func args keywords =>
    simp only [Stmt.visited, noCallNodes_stmt, noCallNodes_ofExprs, Expr.visited,
      noCalls_visit] at h
    exact absurd rfl (h.1 func args keywords)
  · next goal value =>
    simp only [Stmt.visited, noCallNodes_stmt, noCallNodes_ofExprs, noCalls_append,
      Expr.visitedList] at h
    exact assignStatement_noCalls within within' h.1.1 h.2
  · rfl

mutual

lemma onStmt_noCalls {s : Stmt} (h : NoCallNodes (s.visited fun _ => true)) :
    (fold within).onStmt s = (fold within').onStmt s := by
  have hstmt := stmt_noCalls within within' h
  cases s with
  | expr value =>
    simp only [Stmt.visited, noCallNodes_stmt, noCallNodes_ofExprs] at h
    rw [Fold.onStmt, Fold.onStmt, onExpr_noCalls within within' h, hstmt]
  | assign targets value =>
    simp only [Stmt.visited, noCallNodes_stmt, noCallNodes_ofExprs, noCalls_append] at h
    rw [Fold.onStmt, Fold.onStmt, onExpr_noCalls within within' h.2,
      onTargets_noCalls within within' h.1, hstmt]
  | augAssign target op value =>
    simp only [Stmt.visited, noCallNodes_stmt, noCallNodes_ofExprs, noCalls_append] at h
    rw [Fold.onStmt, Fold.onStmt, onExpr_noCalls within within' h.2,
      onTarget_noCalls within within' h.1, hstmt]
  | ret value =>
    simp only [Stmt.visited, noCallNodes_stmt, noCallNodes_ofExprs] at h
    rw [Fold.onStmt, Fold.onStmt, onOption_noCalls within within' h, hstmt]
  | delete targets =>
    simp only [Stmt.visited, noCallNodes_stmt, noCallNodes_ofExprs] at h
    rw [Fold.onStmt, Fold.onStmt, onTargets_noCalls within within' h, hstmt]
  | raise exc cause =>
    simp only [Stmt.visited, noCallNodes_stmt, noCallNodes_ofExprs, noCalls_append] at h
    rw [Fold.onStmt, Fold.onStmt, onOption_noCalls within within' h.1,
      onOption_noCalls within within' h.2, hstmt]
  | assert test msg =>
    simp only [Stmt.visited, noCallNodes_stmt, noCallNodes_ofExprs, noCalls_append] at h
    rw [Fold.onStmt, Fold.onStmt, onExpr_noCalls within within' h.1,
      onOption_noCalls within within' h.2, hstmt]
  | pass | breakLoop | continueLoop | «global» | «nonlocal» | importNames | importFrom
  | verbatim =>
    rw [Fold.onStmt, Fold.onStmt, hstmt]
  | ite test body orelse | whileLoop test body orelse =>
    simp only [Stmt.visited, List.cons_append, noCallNodes_stmt, noCallNodes_append,
      noCallNodes_ofExprs] at h
    rw [Fold.onStmt, Fold.onStmt, onExpr_noCalls within within' h.1.1, onBody_noCalls h.1.2,
      onBody_noCalls h.2, hstmt]
  | forLoop target iter body orelse isAsync =>
    simp only [Stmt.visited, List.cons_append, noCallNodes_stmt, noCallNodes_append,
      noCallNodes_ofExprs, noCalls_append] at h
    rw [Fold.onStmt, Fold.onStmt, onExpr_noCalls within within' h.1.1.2,
      onTarget_noCalls within within' h.1.1.1, onBody_noCalls h.1.2, onBody_noCalls h.2, hstmt]
  | tryBlock body handlers orelse finalbody isStar =>
    simp only [Stmt.visited, List.cons_append, noCallNodes_stmt, noCallNodes_append] at h
    rw [Fold.onStmt, Fold.onStmt, onBody_noCalls h.1.1.1, onHandlers_noCalls h.1.1.2,
      onBody_noCalls h.1.2, onBody_noCalls h.2, hstmt]
  | withBlock items body isAsync =>
    simp only [Stmt.visited, noCallNodes_stmt] at h
    rw [Fold.onStmt, Fold.onStmt, onBody_noCalls h, hstmt]
  | functionDef name params returns body decorators isAsync =>
    simp only [Stmt.visited, List.cons_append, noCallNodes_stmt, noCallNodes_append,
      noCallNodes_ofExprs] at h
    rw [Fold.onStmt, Fold.onStmt, onExprs_noCalls within within' h.1, onBody_noCalls h.2, hstmt]
  | classDef name bases keywords body decorators =>
    simp only [Stmt.visited, List.cons_append, noCallNodes_stmt, noCallNodes_append,
      noCallNodes_ofExprs, noCalls_append] at h
    rw [Fold.onStmt, Fold.onStmt, onExprs_noCalls within within' h.1.1.1,
      onExprs_noCalls within within' h.1.1.2, onKeywords_noCalls within within' h.1.2,
      onBody_noCalls h.2, hstmt]

/-- A program without calls is folded in the same way wherever texts can be run. -/
theorem onBody_noCalls {m : List Stmt} (h : NoCallNodes (Stmt.visitedList (fun _ => true) m)) :
    (fold within).onBody m = (fold within').onBody m := by
  cases m with
  | nil => rfl
  | cons s rest =>
    simp only [Stmt.visitedList, noCallNodes_append] at h
    rw [Fold.onBody, Fold.onBody, onStmt_noCalls h.1, onBody_noCalls h.2]

lemma onHandler_noCalls {handler : Handler} (h : NoCallNodes (handler.visited fun _ => true)) :
    (fold within).onHandler handler = (fold within').onHandler handler := by
  obtain ⟨type, name, body⟩ := handler
  simp only [Handler.visited, noCallNodes_append, noCallNodes_ofExprs] at h
  rw [Fold.onHandler, Fold.onHandler, onOption_noCalls within within' h.1, onBody_noCalls h.2]

lemma onHandlers_noCalls {handlers : List Handler}
    (h : NoCallNodes (Handler.visitedList (fun _ => true) handlers)) :
    (fold within).onHandlers handlers = (fold within').onHandlers handlers := by
  cases handlers with
  | nil => rfl
  | cons handler rest =>
    simp only [Handler.visitedList, noCallNodes_append] at h
    rw [Fold.onHandlers, Fold.onHandlers, onHandler_noCalls h.1, onHandlers_noCalls h.2]

end

end Resolve

/-- A program without calls becomes the same in sessions that differ in their depth only, and leaves
the same behind. -/
theorem Session.transform_noCalls {m : Module} (h : Resolve.NoCallNodes m.nodes) {s t : Session}
    (hst : s.Like t) :
    (s.transform m).1 = (t.transform m).1 ∧ (s.transform m).2.Like (t.transform m).2 := by
  have hblind := Resolve.onBody_holds Resolve.blind_none m s t hst
  have hrun (u : Session) : u.transform m = ((Resolve.fold none).onBody m).run u := by
    rw [Resolve.transform_eq_run, Resolve.onBody_noCalls _ none h]
  rw [hrun, hrun]
  exact hblind

end Unmask
