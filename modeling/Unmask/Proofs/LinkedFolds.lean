import Unmask.Syntax.Fold

/-!
# Folds that go together

A fold is a recipe that any kind of computation can follow. Two folds whose computations may be of
different kinds go together on every tree if they go together on each node whose parts do.
-/
namespace Unmask

/-- A relation between computations that is kept as they are put together. -/
structure Linking (m n : Type → Type) [Monad m] [Monad n] (R : ∀ {α : Type}, m α → n α → Prop) :
    Prop where
  pure {α : Type} (a : α) : R (Pure.pure a) (Pure.pure a)
  bind {α β : Type} {x : m α} {y : n α} {f : α → m β} {g : α → n β} :
    R x y → (∀ a, R (f a) (g a)) → R (x >>= f) (y >>= g)

namespace Fold

variable {m n : Type → Type} [Monad m] [Monad n]

/-- Two folds do related things with an expression if the actions on its parts are related. -/
structure LinkedExprs (F : Fold m) (G : Fold n) (R : ∀ {α : Type}, m α → n α → Prop) : Prop
    extends Linking m n R where
  expr (e : Expr) {x : m Expr} {y : n Expr} : R x y → R (F.expr e x) (G.expr e y)

/-- And so they do with a statement. -/
structure Linked (F : Fold m) (G : Fold n) (R : ∀ {α : Type}, m α → n α → Prop) : Prop
    extends LinkedExprs F G R where
  stmt (s : Stmt) {x : m Stmt} {y : n Stmt} : R x y → R (F.stmt s x) (G.stmt s y)

variable {F : Fold m} {G : Fold n} {R : ∀ {α : Type}, m α → n α → Prop}

namespace LinkedExprs

mutual

/-- Linked folds go together on every expression. -/
theorem onExpr (h : F.LinkedExprs G R) (e : Expr) : R (F.onExpr e) (G.onExpr e) := by
  cases e with
  | name | constant | verbatim =>
    rw [Fold.onExpr, Fold.onExpr]
    exact h.expr _ (h.pure _)
  | «attribute» value _ | starred value | await value | named _ value | lambda _ value
  | unary _ value =>
    rw [Fold.onExpr, Fold.onExpr]
    exact h.expr _ (h.bind (onExpr h value) fun _ => h.pure _)
  | subscript left right | binary left _ right =>
    rw [Fold.onExpr, Fold.onExpr]
    exact h.expr _ (h.bind (onExpr h left) fun _ => h.bind (onExpr h right) fun _ => h.pure _)
  | slice lower upper step =>
    rw [Fold.onExpr, Fold.onExpr]
    exact h.expr _ (h.bind (onOption h lower) fun _ => h.bind (onOption h upper) fun _ =>
      h.bind (onOption h step) fun _ => h.pure _)
  | call func args keywords =>
    rw [Fold.onExpr, Fold.onExpr]
    exact h.expr _ (h.bind (onExpr h func) fun _ => h.bind (onExprs h args) fun _ =>
      h.bind (onKeywords h keywords) fun _ => h.pure _)
  | bool _ items | list items | tuple items | set items =>
    rw [Fold.onExpr, Fold.onExpr]
    exact h.expr _ (h.bind (onExprs h items) fun _ => h.pure _)
  | compare left _ comparators =>
    rw [Fold.onExpr, Fold.onExpr]
    exact h.expr _ (h.bind (onExpr h left) fun _ => h.bind (onExprs h comparators) fun _ =>
      h.pure _)
  | conditional test body orelse =>
    rw [Fold.onExpr, Fold.onExpr]
    exact h.expr _ (h.bind (onExpr h test) fun _ => h.bind (onExpr h body) fun _ =>
      h.bind (onExpr h orelse) fun _ => h.pure _)
  | dict keys values =>
    rw [Fold.onExpr, Fold.onExpr]
    exact h.expr _ (h.bind (onOptions h keys) fun _ => h.bind (onExprs h values) fun _ =>
      h.pure _)
  | listComp elt generators | setComp elt generators | generator elt generators =>
    rw [Fold.onExpr, Fold.onExpr]
    exact h.expr _ (h.bind (onComprehensions h generators) fun _ =>
      h.bind (onExpr h elt) fun _ => h.pure _)
  | dictComp key value generators =>
    rw [Fold.onExpr, Fold.onExpr]
    exact h.expr _ (h.bind (onComprehensions h generators) fun _ =>
      h.bind (onExpr h key) fun _ => h.bind (onExpr h value) fun _ => h.pure _)

theorem onTarget (h : F.LinkedExprs G R) (goal : Expr) : R (F.onTarget goal) (G.onTarget goal) := by
  cases goal with
  | tuple items | list items =>
    rw [Fold.onTarget, Fold.onTarget]
    exact h.bind (onTargets h items) fun _ => h.pure _
  | starred value =>
    rw [Fold.onTarget, Fold.onTarget]
    exact h.bind (onTarget h value) fun _ => h.pure _
  | subscript value slice =>
    rw [Fold.onTarget, Fold.onTarget]
    exact h.bind (onExpr h value) fun _ => h.bind (onExpr h slice) fun _ => h.pure _
  | «attribute» value _ =>
    rw [Fold.onTarget, Fold.onTarget]
    exact h.bind (onExpr h value) fun _ => h.pure _
  | _ => exact h.pure _

theorem onOption (h : F.LinkedExprs G R) (o : Option Expr) : R (F.onOption o) (G.onOption o) := by
  cases o with
  | none => exact h.pure _
  | some e =>
    rw [Fold.onOption, Fold.onOption]
    exact h.bind (onExpr h e) fun _ => h.pure _

theorem onOptions (h : F.LinkedExprs G R) (os : List (Option Expr)) :
    R (F.onOptions os) (G.onOptions os) := by
  cases os with
  | nil => exact h.pure _
  | cons o rest =>
    rw [Fold.onOptions, Fold.onOptions]
    exact h.bind (onOption h o) fun _ => h.bind (onOptions h rest) fun _ => h.pure _

theorem onExprs (h : F.LinkedExprs G R) (es : List Expr) : R (F.onExprs es) (G.onExprs es) := by
  cases es with
  | nil => exact h.pure _
  | cons e rest =>
    rw [Fold.onExprs, Fold.onExprs]
    exact h.bind (onExpr h e) fun _ => h.bind (onExprs h rest) fun _ => h.pure _

theorem onTargets (h : F.LinkedExprs G R) (goals : List Expr) :
    R (F.onTargets goals) (G.onTargets goals) := by
  cases goals with
  | nil => exact h.pure _
  | cons goal rest =>
    rw [Fold.onTargets, Fold.onTargets]
    exact h.bind (onTarget h goal) fun _ => h.bind (onTargets h rest) fun _ => h.pure _

theorem onKeyword (h : F.LinkedExprs G R) (k : Keyword) : R (F.onKeyword k) (G.onKeyword k) := by
  obtain ⟨_, value⟩ := k
  rw [Fold.onKeyword, Fold.onKeyword]
  exact h.bind (onExpr h value) fun _ => h.pure _

theorem onKeywords (h : F.LinkedExprs G R) (ks : List Keyword) :
    R (F.onKeywords ks) (G.onKeywords ks) := by
  cases ks with
  | nil => exact h.pure _
  | cons k rest =>
    rw [Fold.onKeywords, Fold.onKeywords]
    exact h.bind (onKeyword h k) fun _ => h.bind (onKeywords h rest) fun _ => h.pure _

theorem onComprehension (h : F.LinkedExprs G R) (g : Comprehension) :
    R (F.onComprehension g) (G.onComprehension g) := by
  obtain ⟨goal, iter, ifs, _⟩ := g
  rw [Fold.onComprehension, Fold.onComprehension]
  exact h.bind (onExpr h iter) fun _ => h.bind (onTarget h goal) fun _ =>
    h.bind (onExprs h ifs) fun _ => h.pure _

theorem onComprehensions (h : F.LinkedExprs G R) (gs : List Comprehension) :
    R (F.onComprehensions gs) (G.onComprehensions gs) := by
  cases gs with
  | nil => exact h.pure _
  | cons g rest =>
    rw [Fold.onComprehensions, Fold.onComprehensions]
    exact h.bind (onComprehension h g) fun _ => h.bind (onComprehensions h rest) fun _ => h.pure _

end

end LinkedExprs

namespace Linked

mutual

/-- Linked folds go together on every statement. -/
theorem onStmt (h : F.Linked G R) (s : Stmt) : R (F.onStmt s) (G.onStmt s) := by
  cases s with
  | expr value =>
    rw [Fold.onStmt, Fold.onStmt]
    exact h.stmt _ (h.bind (h.onExpr value) fun _ => h.pure _)
  | assign goals value =>
    rw [Fold.onStmt, Fold.onStmt]
    exact h.stmt _ (h.bind (h.onExpr value) fun _ => h.bind (h.onTargets goals) fun _ => h.pure _)
  | augAssign goal _ value =>
    rw [Fold.onStmt, Fold.onStmt]
    exact h.stmt _ (h.bind (h.onExpr value) fun _ => h.bind (h.onTarget goal) fun _ => h.pure _)
  | ret value =>
    rw [Fold.onStmt, Fold.onStmt]
    exact h.stmt _ (h.bind (h.onOption value) fun _ => h.pure _)
  | delete goals =>
    rw [Fold.onStmt, Fold.onStmt]
    exact h.stmt _ (h.bind (h.onTargets goals) fun _ => h.pure _)
  | raise exc cause =>
    rw [Fold.onStmt, Fold.onStmt]
    exact h.stmt _ (h.bind (h.onOption exc) fun _ => h.bind (h.onOption cause) fun _ => h.pure _)
  | assert test msg =>
    rw [Fold.onStmt, Fold.onStmt]
    exact h.stmt _ (h.bind (h.onExpr test) fun _ => h.bind (h.onOption msg) fun _ => h.pure _)
  | pass | breakLoop | continueLoop | «global» | «nonlocal» | importNames | importFrom
  | verbatim =>
    rw [Fold.onStmt, Fold.onStmt]
    exact h.stmt _ (h.pure _)
  | ite test body orelse | whileLoop test body orelse =>
    rw [Fold.onStmt, Fold.onStmt]
    exact h.stmt _ (h.bind (h.onExpr test) fun _ => h.bind (onBody h body) fun _ =>
      h.bind (onBody h orelse) fun _ => h.pure _)
  | forLoop goal iter body orelse _ =>
    rw [Fold.onStmt, Fold.onStmt]
    exact h.stmt _ (h.bind (h.onExpr iter) fun _ => h.bind (h.onTarget goal) fun _ =>
      h.bind (onBody h body) fun _ => h.bind (onBody h orelse) fun _ => h.pure _)
  | tryBlock body handlers orelse finalbody _ =>
    rw [Fold.onStmt, Fold.onStmt]
    exact h.stmt _ (h.bind (onBody h body) fun _ => h.bind (onHandlers h handlers) fun _ =>
      h.bind (onBody h orelse) fun _ => h.bind (onBody h finalbody) fun _ => h.pure _)
  | withBlock _ body _ =>
    rw [Fold.onStmt, Fold.onStmt]
    exact h.stmt _ (h.bind (onBody h body) fun _ => h.pure _)
  | functionDef _ _ _ body decorators _ =>
    rw [Fold.onStmt, Fold.onStmt]
    exact h.stmt _ (h.bind (h.onExprs decorators) fun _ => h.bind (onBody h body) fun _ =>
      h.pure _)
  | classDef _ bases keywords body decorators =>
    rw [Fold.onStmt, Fold.onStmt]
    exact h.stmt _ (h.bind (h.onExprs decorators) fun _ => h.bind (h.onExprs bases) fun _ =>
      h.bind (h.onKeywords keywords) fun _ => h.bind (onBody h body) fun _ => h.pure _)

/-- Linked folds go together on every program. -/
theorem onBody (h : F.Linked G R) (m : List Stmt) : R (F.onBody m) (G.onBody m) := by
  cases m with
  | nil => exact h.pure _
  | cons s rest =>
    rw [Fold.onBody, Fold.onBody]
    exact h.bind (onStmt h s) fun _ => h.bind (onBody h rest) fun _ => h.pure _

theorem onHandler (h : F.Linked G R) (handler : Handler) :
    R (F.onHandler handler) (G.onHandler handler) := by
  obtain ⟨type, _, body⟩ := handler
  rw [Fold.onHandler, Fold.onHandler]
  exact h.bind (h.onOption type) fun _ => h.bind (onBody h body) fun _ => h.pure _

theorem onHandlers (h : F.Linked G R) (handlers : List Handler) :
    R (F.onHandlers handlers) (G.onHandlers handlers) := by
  cases handlers with
  | nil => exact h.pure _
  | cons handler rest =>
    rw [Fold.onHandlers, Fold.onHandlers]
    exact h.bind (onHandler h handler) fun _ => h.bind (onHandlers h rest) fun _ => h.pure _

end

end Linked
end Fold
end Unmask
