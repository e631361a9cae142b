import Unmask.Proofs.CallSites
import Unmask.Syntax.Fold

/-!
# Folds that keep calls

A fold keeps the calls of a name in a whole program if it keeps them in expressions that are read
and in each statement whose parts are folded. What it is to keep them is left to a judgement on the
computations of the fold, and the states that it leads through are followed along, so the walk
through the statements is taken once for all of them.
-/
namespace Unmask

/-- What can be said of the results of computations: what holds of a result at once, and what
follows from what holds of the step before. -/
structure Judgement (m : Type → Type) [Monad m] where
  Holds {α : Type} : m α → (α → Prop) → Prop
  pure {α : Type} {Q : α → Prop} {a : α} : Q a → Holds (Pure.pure a) Q
  bind {α β : Type} {x : m α} {f : α → m β} {P : α → Prop} {Q : β → Prop} :
    Holds x P → (∀ a, Holds (f a) fun b => P a → Q b) → Holds (x >>= f) Q

/-- What can be said of computations that lead from state to state. In each state a judgement tells
of those that stay in it. -/
structure Thread (m : Type → Type) [Monad m] (σ : Type) where
  reads : σ → Judgement m
  Holds {α : Type} : σ → m α → (α → σ → Prop) → Prop
  pure {α : Type} {n : σ} {Q : α → σ → Prop} {a : α} : Q a n → Holds n (Pure.pure a) Q
  read {α β : Type} {n : σ} {x : m α} {f : α → m β} {P : α → Prop} {Q : β → σ → Prop} :
    (reads n).Holds x P → (∀ a, Holds n (f a) fun b k => P a → Q b k) → Holds n (x >>= f) Q
  bind {α β : Type} {n : σ} {x : m α} {f : α → m β} {P : α → σ → Prop} {Q : β → σ → Prop} :
    Holds n x P → (∀ a k, Holds k (f a) fun b l => P a k → Q b l) → Holds n (x >>= f) Q

variable {m : Type → Type} [Monad m] {σ : Type}

/-- Where states do not matter there is one. -/
def Judgement.thread (J : Judgement m) : Thread m Unit where
  reads _ := J
  Holds _ x Q := J.Holds x fun a => Q a ()
  pure h := J.pure h
  read hx hf := J.bind hx hf
  bind hx hf := J.bind hx fun a => hf a ()

/-- A fold keeps the calls of a name, each folded in the state in which it is come to. -/
structure Fold.Keeps (T : Thread m σ) (G : Fold m) (after : σ → Module → σ) (id : String)
    (fold : σ → Expr → Expr) : Prop where
  expr : ∀ n e, (T.reads n).Holds (G.onExpr e) fun e' => Alike (fold n) (e.sites id) (e'.sites id)
  stmt : ∀ n s walk,
    (T.Holds n walk fun s' _ => s'.sites id = foldedSites fold (s.places after id n)) →
      T.Holds n (G.stmt s walk) fun body _ =>
        Stmt.sitesList id body = foldedSites fold (s.places after id n)
  afterStmt : ∀ n s Q, T.Holds n (G.onStmt s) Q →
    T.Holds n (G.onStmt s) fun body k => k = after n [s] ∧ Q body k
  afterBody : ∀ n body Q, T.Holds n (G.onBody body) Q →
    T.Holds n (G.onBody body) fun body' k => k = after n body ∧ Q body' k

namespace Fold.Keeps

variable {T : Thread m σ} {G : Fold m} {after : σ → Module → σ} {id : String}
  {fold : σ → Expr → Expr}

lemma onOption (h : G.Keeps T after id fold) (n : σ) (o : Option Expr) :
    (T.reads n).Holds (G.onOption o) fun o' =>
      Alike (fold n) (Expr.sitesOption id o) (Expr.sitesOption id o') := by
  cases o with
  | none => exact (T.reads n).pure .nil
  | some e => exact (T.reads n).bind (h.expr n e) fun e' => (T.reads n).pure fun he => he

lemma onExprs (h : G.Keeps T after id fold) (n : σ) (es : List Expr) :
    (T.reads n).Holds (G.onExprs es) fun es' =>
      Alike (fold n) (Expr.sitesList id es) (Expr.sitesList id es') := by
  induction es with
  | nil => exact (T.reads n).pure .nil
  | cons e rest ih =>
    rw [Fold.onExprs]
    exact (T.reads n).bind (h.expr n e) fun e' => (T.reads n).bind ih fun rest' =>
      (T.reads n).pure fun hrest he => he.append hrest

lemma onKeywords (h : G.Keeps T after id fold) (n : σ) (ks : List Keyword) :
    (T.reads n).Holds (G.onKeywords ks) fun ks' =>
      Alike (fold n) (Keyword.sitesList id ks) (Keyword.sitesList id ks') := by
  induction ks with
  | nil => exact (T.reads n).pure .nil
  | cons k rest ih =>
    obtain ⟨arg, value⟩ := k
    rw [Fold.onKeywords, Fold.onKeyword]
    have hk : (T.reads n).Holds (do return (⟨arg, ← G.onExpr value⟩ : Keyword)) fun k' =>
        Alike (fold n) (value.sites id) (k'.sites id) :=
      (T.reads n).bind (h.expr n value) fun value' => (T.reads n).pure fun hvalue => hvalue
    exact (T.reads n).bind hk fun k' => (T.reads n).bind ih fun rest' =>
      (T.reads n).pure fun hrest hk => hk.append hrest

mutual

lemma onTarget (h : G.Keeps T after id fold) (n : σ) (goal : Expr) :
    (T.reads n).Holds (G.onTarget goal) fun goal' =>
      Alike (fold n) (goal.targetSites id) (goal'.targetSites id) := by
  cases goal with
  | tuple items | list items =>
    rw [Fold.onTarget]
    exact (T.reads n).bind (onTargets h n items) fun items' =>
      (T.reads n).pure fun hitems => hitems
  | starred value =>
    rw [Fold.onTarget]
    exact (T.reads n).bind (onTarget h n value) fun value' =>
      (T.reads n).pure fun hvalue => hvalue
  | subscript value slice =>
    rw [Fold.onTarget]
    exact (T.reads n).bind (h.expr n value) fun value' =>
      (T.reads n).bind (h.expr n slice) fun slice' =>
        (T.reads n).pure fun hslice hvalue => hvalue.append hslice
  | «attribute» value attr =>
    rw [Fold.onTarget]
    exact (T.reads n).bind (h.expr n value) fun value' => (T.reads n).pure fun hvalue => hvalue
  | _ => exact (T.reads n).pure (Alike.targets _)

lemma onTargets (h : G.Keeps T after id fold) (n : σ) (goals : List Expr) :
    (T.reads n).Holds (G.onTargets goals) fun goals' =>
      Alike (fold n) (Expr.targetSitesList id goals) (Expr.targetSitesList id goals') := by
  cases goals with
  | nil => exact (T.reads n).pure .nil
  | cons goal rest =>
    rw [Fold.onTargets]
    exact (T.reads n).bind (onTarget h n goal) fun goal' =>
      (T.reads n).bind (onTargets h n rest) fun rest' =>
        (T.reads n).pure fun hrest hgoal => hgoal.append hrest

end

mutual

/-- A fold that keeps calls keeps those of every statement. -/
theorem onStmt (h : G.Keeps T after id fold) (n : σ) (s : Stmt) :
    T.Holds n (G.onStmt s) fun body k =>
      k = after n [s] ∧ Stmt.sitesList id body = foldedSites fold (s.places after id n) := by
  refine h.afterStmt n s _ ?_
  cases s with
  | expr value =>
    rw [Fold.onStmt]
    exact h.stmt n _ _ (T.read (h.expr n value) fun value' => T.pure fun hvalue => hvalue.placed)
  | assign targets value =>
    rw [Fold.onStmt]
    exact h.stmt n _ _ (T.read (h.expr n value) fun value' =>
      T.read (onTargets h n targets) fun targets' => T.pure fun htargets hvalue =>
        (htargets.append hvalue).placed)
  | augAssign target op value =>
    rw [Fold.onStmt]
    exact h.stmt n _ _ (T.read (h.expr n value) fun value' =>
      T.read (onTarget h n target) fun target' => T.pure fun htarget hvalue =>
        (htarget.append hvalue).placed)
  | ret value =>
    rw [Fold.onStmt]
    exact h.stmt n _ _ (T.read (onOption h n value) fun value' => T.pure fun hvalue =>
      hvalue.placed)
  | delete targets =>
    rw [Fold.onStmt]
    exact h.stmt n _ _ (T.read (onTargets h n targets) fun targets' => T.pure fun htargets =>
      htargets.placed)
  | raise exc cause =>
    rw [Fold.onStmt]
    exact h.stmt n _ _ (T.read (onOption h n exc) fun exc' =>
      T.read (onOption h n cause) fun cause' => T.pure fun hcause hexc =>
        (hexc.append hcause).placed)
  | assert test msg =>
    rw [Fold.onStmt]
    exact h.stmt n _ _ (T.read (h.expr n test) fun test' =>
      T.read (onOption h n msg) fun msg' => T.pure fun hmsg htest => (htest.append hmsg).placed)
  | pass | breakLoop | continueLoop | «global» | «nonlocal» | importNames | importFrom
  | verbatim =>
    rw [Fold.onStmt]
    exact h.stmt n _ _ (T.pure rfl)
  | ite test body orelse | whileLoop test body orelse =>
    rw [Fold.onStmt]
    refine h.stmt n _ _ (T.read (h.expr n test) fun test' =>
      T.bind (onBody h n body) fun body' k => T.bind (onBody h k orelse) fun orelse' _ =>
        T.pure ?_)
    -- The state behind the body is known, so the places of the branch are those of the program.
    rintro ⟨-, horelse⟩ ⟨rfl, hbody⟩ htest
    simp only [Stmt.sites, Stmt.places, foldedSites_append, htest.placed, hbody, horelse]
  | forLoop target iter body orelse isAsync =>
    rw [Fold.onStmt]
    refine h.stmt n _ _ (T.read (h.expr n iter) fun iter' =>
      T.read (onTarget h n target) fun target' => T.bind (onBody h n body) fun body' k =>
        T.bind (onBody h k orelse) fun orelse' _ => T.pure ?_)
    rintro ⟨-, horelse⟩ ⟨rfl, hbody⟩ htarget hiter
    simp only [Stmt.sites, Stmt.places, foldedSites_append, (htarget.append hiter).placed, hbody,
      horelse]
  | tryBlock body handlers orelse finalbody isStar =>
    rw [Fold.onStmt]
    refine h.stmt n _ _ (T.bind (onBody h n body) fun body' k =>
      T.bind (onHandlers h k handlers) fun handlers' l =>
        T.bind (onBody h l orelse) fun orelse' j =>
          T.bind (onBody h j finalbody) fun finalbody' _ => T.pure ?_)
    rintro ⟨-, hfinalbody⟩ ⟨rfl, horelse⟩ ⟨rfl, hhandlers⟩ ⟨rfl, hbody⟩
    simp only [Stmt.sites, Stmt.places, foldedSites_append, hbody, hhandlers, horelse, hfinalbody]
  | withBlock items body isAsync =>
    rw [Fold.onStmt]
    exact h.stmt n _ _ (T.bind (onBody h n body) fun body' _ => T.pure fun hbody => hbody.2)
  | functionDef name params returns body decorators isAsync =>
    rw [Fold.onStmt]
    refine h.stmt n _ _ (T.read (onExprs h n decorators) fun decorators' =>
      T.bind (onBody h n body) fun body' _ => T.pure ?_)
    rintro ⟨-, hbody⟩ hdecorators
    simp only [Stmt.sites, Stmt.places, foldedSites_append, hdecorators.placed, hbody]
  | classDef name bases keywords body decorators =>
    rw [Fold.onStmt]
    refine h.stmt n _ _ (T.read (onExprs h n decorators) fun decorators' =>
      T.read (onExprs h n bases) fun bases' => T.read (onKeywords h n keywords) fun keywords' =>
        T.bind (onBody h n body) fun body' _ => T.pure ?_)
    rintro ⟨-, hbody⟩ hkeywords hbases hdecorators
    simp only [Stmt.sites, Stmt.places, foldedSites_append, hbody,
      ((hdecorators.append hbases).append hkeywords).placed]

/-- A fold that keeps calls keeps those of every program. -/
theorem onBody (h : G.Keeps T after id fold) (n : σ) (body : Module) :
    T.Holds n (G.onBody body) fun body' k => k = after n body ∧
      Stmt.sitesList id body' = foldedSites fold (Stmt.placesList after id n body) := by
  refine h.afterBody n body _ ?_
  cases body with
  | nil => exact T.pure rfl
  | cons s rest =>
    rw [Fold.onBody]
    refine T.bind (onStmt h n s) fun body' k => T.bind (onBody h k rest) fun rest' _ =>
      T.pure ?_
    rintro ⟨-, hrest⟩ ⟨rfl, hs⟩
    rw [sitesList_append, hs, hrest, Stmt.placesList, foldedSites_append]

theorem onHandler (h : G.Keeps T after id fold) (n : σ) (handler : Handler) :
    T.Holds n (G.onHandler handler) fun handler' k => k = after n handler.body ∧
      handler'.sites id = foldedSites fold (handler.places after id n) := by
  obtain ⟨type, name, body⟩ := handler
  rw [Fold.onHandler]
  refine T.read (onOption h n type) fun type' => T.bind (onBody h n body) fun body' _ => T.pure ?_
  rintro ⟨rfl, hbody⟩ htype
  refine ⟨rfl, ?_⟩
  rw [Handler.sites, Handler.places, foldedSites_append, htype.placed, hbody]

theorem onHandlers (h : G.Keeps T after id fold) (n : σ) (handlers : List Handler) :
    T.Holds n (G.onHandlers handlers) fun handlers' k =>
      k = handlers.foldl (fun n handler => after n handler.body) n ∧
        Handler.sitesList id handlers' =
          foldedSites fold (Handler.placesList after id n handlers) := by
  cases handlers with
  | nil => exact T.pure ⟨rfl, rfl⟩
  | cons handler rest =>
    rw [Fold.onHandlers]
    refine T.bind (onHandler h n handler) fun handler' k =>
      T.bind (onHandlers h k rest) fun rest' _ => T.pure ?_
    rintro ⟨hlast, hrest⟩ ⟨rfl, hhandler⟩
    refine ⟨hlast, ?_⟩
    rw [Handler.sitesList, Handler.placesList, foldedSites_append, hhandler, hrest]

end

end Fold.Keeps

end Unmask
