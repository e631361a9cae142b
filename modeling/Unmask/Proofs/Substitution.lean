import Mathlib.Logic.Basic
import Unmask.Syntax.Fold

/-!
# Substitution

A substitution puts an expression in place of every name that is read and rebuilds everything
else. One after another they are one: what the first puts in place of a name is what the second
substitutes in (`onBody_substituting`).
-/
namespace Unmask.Fold

/-- The fold that puts an expression in place of each name that is read. -/
def substituting (σ : String → Expr) : Fold Id where
  expr e walk :=
    match e with
    | .name id => σ id
    | _ => walk
  stmt _ walk := [walk]

/-- What stands for a name behind two substitutions. -/
def andThen (σ τ : String → Expr) (id : String) : Expr := (substituting τ).onExpr (σ id)

variable (σ τ : String → Expr)

mutual

/-- Two substitutions in an expression are one. -/
theorem onExpr_substituting (e : Expr) : (substituting τ).onExpr ((substituting σ).onExpr e) =
    (substituting (andThen σ τ)).onExpr e := by
  cases e with
  | name | constant | verbatim => rfl
  | «attribute» value attr => exact congrArg (Expr.attribute · attr) (onExpr_substituting value)
  | unary op operand => exact congrArg (Expr.unary op) (onExpr_substituting operand)
  | lambda params body => exact congrArg (Expr.lambda params) (onExpr_substituting body)
  | named target value => exact congrArg (Expr.named target) (onExpr_substituting value)
  | starred value => exact congrArg Expr.starred (onExpr_substituting value)
  | await value => exact congrArg Expr.await (onExpr_substituting value)
  | subscript value slice =>
    exact congrArg₂ Expr.subscript (onExpr_substituting value) (onExpr_substituting slice)
  | binary left op right =>
    exact congrArg₂ (Expr.binary · op ·) (onExpr_substituting left) (onExpr_substituting right)
  | slice lower upper step =>
    show Expr.slice _ _ _ = Expr.slice _ _ _
    rw [onOption_substituting lower, onOption_substituting upper, onOption_substituting step]
  | call func args keywords =>
    show Expr.call _ _ _ = Expr.call _ _ _
    rw [onExpr_substituting func, onExprs_substituting args, onKeywords_substituting keywords]
  | bool op values => exact congrArg (Expr.bool op) (onExprs_substituting values)
  | list items => exact congrArg Expr.list (onExprs_substituting items)
  | tuple items => exact congrArg Expr.tuple (onExprs_substituting items)
  | «set» items => exact congrArg Expr.set (onExprs_substituting items)
  | compare left ops comparators =>
    exact congrArg₂ (Expr.compare · ops ·) (onExpr_substituting left)
      (onExprs_substituting comparators)
  | conditional test body orelse =>
    show Expr.conditional _ _ _ = Expr.conditional _ _ _
    rw [onExpr_substituting test, onExpr_substituting body, onExpr_substituting orelse]
  | dict keys values =>
    exact congrArg₂ Expr.dict (onOptions_substituting keys) (onExprs_substituting values)
  | listComp elt generators =>
    exact congrArg₂ Expr.listComp (onExpr_substituting elt)
      (onComprehensions_substituting generators)
  | setComp elt generators =>
    exact congrArg₂ Expr.setComp (onExpr_substituting elt)
      (onComprehensions_substituting generators)
  | generator elt generators =>
    exact congrArg₂ Expr.generator (onExpr_substituting elt)
      (onComprehensions_substituting generators)
  | dictComp key value generators =>
    show Expr.dictComp _ _ _ = Expr.dictComp _ _ _
    rw [onExpr_substituting key, onExpr_substituting value,
      onComprehensions_substituting generators]

/-- Two substitutions in what a target reads are one. -/
theorem onTarget_substituting (goal : Expr) :
    (substituting τ).onTarget ((substituting σ).onTarget goal) =
      (substituting (andThen σ τ)).onTarget goal := by
  cases goal with
  | tuple items => exact congrArg Expr.tuple (onTargets_substituting items)
  | list items => exact congrArg Expr.list (onTargets_substituting items)
  | starred value => exact congrArg Expr.starred (onTarget_substituting value)
  | subscript value slice =>
    exact congrArg₂ Expr.subscript (onExpr_substituting value) (onExpr_substituting slice)
  | «attribute» value attr => exact congrArg (Expr.attribute · attr) (onExpr_substituting value)
  | _ => rfl

theorem onOption_substituting (o : Option Expr) :
    (substituting τ).onOption ((substituting σ).onOption o) =
      (substituting (andThen σ τ)).onOption o := by
  cases o with
  | none => rfl
  | some e => exact congrArg some (onExpr_substituting e)

theorem onOptions_substituting (os : List (Option Expr)) :
    (substituting τ).onOptions ((substituting σ).onOptions os) =
      (substituting (andThen σ τ)).onOptions os := by
  cases os with
  | nil => rfl
  | cons o rest =>
    exact congrArg₂ List.cons (onOption_substituting o) (onOptions_substituting rest)

theorem onExprs_substituting (es : List Expr) :
    (substituting τ).onExprs ((substituting σ).onExprs es) =
      (substituting (andThen σ τ)).onExprs es := by
  cases es with
  | nil => rfl
  | cons e rest =>
    exact congrArg₂ List.cons (onExpr_substituting e) (onExprs_substituting rest)

theorem onTargets_substituting (goals : List Expr) :
    (substituting τ).onTargets ((substituting σ).onTargets goals) =
      (substituting (andThen σ τ)).onTargets goals := by
  cases goals with
  | nil => rfl
  | cons goal rest =>
    exact congrArg₂ List.cons (onTarget_substituting goal) (onTargets_substituting rest)

theorem onKeyword_substituting (k : Keyword) :
    (substituting τ).onKeyword ((substituting σ).onKeyword k) =
      (substituting (andThen σ τ)).onKeyword k := by
  obtain ⟨arg, value⟩ := k
  exact congrArg (Keyword.mk arg) (onExpr_substituting value)

theorem onKeywords_substituting (ks : List Keyword) :
    (substituting τ).onKeywords ((substituting σ).onKeywords ks) =
      (substituting (andThen σ τ)).onKeywords ks := by
  cases ks with
  | nil => rfl
  | cons k rest =>
    exact congrArg₂ List.cons (onKeyword_substituting k) (onKeywords_substituting rest)

theorem onComprehension_substituting (g : Comprehension) :
    (substituting τ).onComprehension ((substituting σ).onComprehension g) =
      (substituting (andThen σ τ)).onComprehension g := by
  obtain ⟨goal, iter, ifs, isAsync⟩ := g
  show Comprehension.mk _ _ _ isAsync = Comprehension.mk _ _ _ isAsync
  rw [onTarget_substituting goal, onExpr_substituting iter, onExprs_substituting ifs]

theorem onComprehensions_substituting (gs : List Comprehension) :
    (substituting τ).onComprehensions ((substituting σ).onComprehensions gs) =
      (substituting (andThen σ τ)).onComprehensions gs := by
  cases gs with
  | nil => rfl
  | cons g rest =>
    exact congrArg₂ List.cons (onComprehension_substituting g) (onComprehensions_substituting rest)

end

/-- The statements that statements in a row become. -/
def substitute (m : List Stmt) : List Stmt := (substituting σ).onBody m

lemma substitute_cons (s : Stmt) (rest : List Stmt) :
    substitute σ (s :: rest) = substitute σ [s] ++ substitute σ rest := by
  have hs : substitute σ [s] = (substituting σ).onStmt s := List.append_nil _
  rw [hs]
  rfl

lemma substitute_append (m rest : List Stmt) :
    substitute σ (m ++ rest) = substitute σ m ++ substitute σ rest := by
  induction m with
  | nil => rfl
  | cons s m ih =>
    rw [List.cons_append, substitute_cons, substitute_cons σ s m, ih, List.append_assoc]

/-- Statements that become the same become the same alone in a row. -/
lemma single {s s' : Stmt} (h : s = s') : [s] ++ [] = [s'] := by rw [h, List.append_nil]

mutual

/-- Two substitutions in a statement are one. -/
theorem onStmt_substituting (s : Stmt) :
    (substituting τ).onBody ((substituting σ).onStmt s) =
      (substituting (andThen σ τ)).onStmt s := by
  cases s with
  | pass | breakLoop | continueLoop | «global» | «nonlocal» | importNames | importFrom
  | verbatim => rfl
  | expr value => exact single (congrArg Stmt.expr (onExpr_substituting σ τ value))
  | assign targets value =>
    exact single (congrArg₂ Stmt.assign (onTargets_substituting σ τ targets)
      (onExpr_substituting σ τ value))
  | augAssign target op value =>
    exact single (congrArg₂ (Stmt.augAssign · op ·) (onTarget_substituting σ τ target)
      (onExpr_substituting σ τ value))
  | ret value => exact single (congrArg Stmt.ret (onOption_substituting σ τ value))
  | delete targets => exact single (congrArg Stmt.delete (onTargets_substituting σ τ targets))
  | raise exc cause =>
    exact single (congrArg₂ Stmt.raise (onOption_substituting σ τ exc)
      (onOption_substituting σ τ cause))
  | assert test msg =>
    exact single (congrArg₂ Stmt.assert (onExpr_substituting σ τ test)
      (onOption_substituting σ τ msg))
  | ite test body orelse =>
    refine single (?_ : Stmt.ite _ _ _ = Stmt.ite _ _ _)
    rw [onExpr_substituting σ τ test, onBody_substituting body, onBody_substituting orelse]
  | whileLoop test body orelse =>
    refine single (?_ : Stmt.whileLoop _ _ _ = Stmt.whileLoop _ _ _)
    rw [onExpr_substituting σ τ test, onBody_substituting body, onBody_substituting orelse]
  | forLoop target iter body orelse isAsync =>
    refine single (?_ : Stmt.forLoop _ _ _ _ isAsync = Stmt.forLoop _ _ _ _ isAsync)
    rw [onTarget_substituting σ τ target, onExpr_substituting σ τ iter, onBody_substituting body,
      onBody_substituting orelse]
  | tryBlock body handlers orelse finalbody isStar =>
    refine single (?_ : Stmt.tryBlock _ _ _ _ isStar = Stmt.tryBlock _ _ _ _ isStar)
    rw [onBody_substituting body, onHandlers_substituting handlers, onBody_substituting orelse,
      onBody_substituting finalbody]
  | withBlock items body isAsync =>
    exact single (congrArg (Stmt.withBlock items · isAsync) (onBody_substituting body))
  | functionDef name params returns body decorators isAsync =>
    exact single (congrArg₂ (Stmt.functionDef name params returns · · isAsync)
      (onBody_substituting body) (onExprs_substituting σ τ decorators))
  | classDef name bases keywords body decorators =>
    refine single (?_ : Stmt.classDef name _ _ _ _ = Stmt.classDef name _ _ _ _)
    rw [onExprs_substituting σ τ decorators, onExprs_substituting σ τ bases,
      onKeywords_substituting σ τ keywords, onBody_substituting body]

/-- Two substitutions in a program are one. -/
theorem onBody_substituting (m : List Stmt) :
    (substituting τ).onBody ((substituting σ).onBody m) =
      (substituting (andThen σ τ)).onBody m := by
  cases m with
  | nil => rfl
  | cons s rest =>
    refine (substitute_append τ _ _).trans ?_
    exact congrArg₂ List.append (onStmt_substituting s) (onBody_substituting rest)

theorem onHandler_substituting (h : Handler) :
    (substituting τ).onHandler ((substituting σ).onHandler h) =
      (substituting (andThen σ τ)).onHandler h := by
  obtain ⟨type, name, body⟩ := h
  exact congrArg₂ (Handler.mk · name ·) (onOption_substituting σ τ type) (onBody_substituting body)

theorem onHandlers_substituting (hs : List Handler) :
    (substituting τ).onHandlers ((substituting σ).onHandlers hs) =
      (substituting (andThen σ τ)).onHandlers hs := by
  cases hs with
  | nil => rfl
  | cons h rest =>
    exact congrArg₂ List.cons (onHandler_substituting h) (onHandlers_substituting rest)

end

end Unmask.Fold
