import Unmask.Syntax.Tree

/-!
# Rewriting trees

A fold rewrites a tree from the outside in: it is shown each statement and each expression that is
read, together with the action that rebuilds the node from its folded children, and decides whether
to take that action. Names that are bound are not read, so a target is folded only in the parts that
are. Sources are folded before the targets they are assigned to.
-/
namespace Unmask

/-- What a fold does with a node, given the action that rebuilds it from its folded children. -/
structure Fold (m : Type → Type) where
  expr : Expr → m Expr → m Expr
  stmt : Stmt → m Stmt → m (List Stmt)

namespace Fold

variable {m : Type → Type} [Monad m]

mutual

def onExpr (F : Fold m) : Expr → m Expr
  | .name id => F.expr (.name id) (pure (.name id))
  | .constant c => F.expr (.constant c) (pure (.constant c))
  | .attribute value attr =>
    F.expr (.attribute value attr) do return .attribute (← onExpr F value) attr
  | .subscript value slice =>
    F.expr (.subscript value slice) do
      let value ← onExpr F value
      return .subscript value (← onExpr F slice)
  | .slice lower upper step =>
    F.expr (.slice lower upper step) do
      let lower ← onOption F lower
      let upper ← onOption F upper
      return .slice lower upper (← onOption F step)
  | .call func args keywords =>
    F.expr (.call func args keywords) do
      let func ← onExpr F func
      let args ← onExprs F args
      return .call func args (← onKeywords F keywords)
  | .binary left op right =>
    F.expr (.binary left op right) do
      let left ← onExpr F left
      return .binary left op (← onExpr F right)
  | .unary op operand => F.expr (.unary op operand) do return .unary op (← onExpr F operand)
  | .bool op values => F.expr (.bool op values) do return .bool op (← onExprs F values)
  | .compare left ops comparators =>
    F.expr (.compare left ops comparators) do
      let left ← onExpr F left
      return .compare left ops (← onExprs F comparators)
  | .conditional test body orelse =>
    F.expr (.conditional test body orelse) do
      let test ← onExpr F test
      let body ← onExpr F body
      return .conditional test body (← onExpr F orelse)
  | .lambda params body => F.expr (.lambda params body) do return .lambda params (← onExpr F body)
  | .named target value => F.expr (.named target value) do return .named target (← onExpr F value)
  | .list items => F.expr (.list items) do return .list (← onExprs F items)
  | .tuple items => F.expr (.tuple items) do return .tuple (← onExprs F items)
  | .set items => F.expr (.set items) do return .set (← onExprs F items)
  | .dict keys values =>
    F.expr (.dict keys values) do
      let keys ← onOptions F keys
      return .dict keys (← onExprs F values)
  | .starred value => F.expr (.starred value) do return .starred (← onExpr F value)
  | .listComp elt generators =>
    F.expr (.listComp elt generators) do
      let generators ← onComprehensions F generators
      return .listComp (← onExpr F elt) generators
  | .setComp elt generators =>
    F.expr (.setComp elt generators) do
      let generators ← onComprehensions F generators
      return .setComp (← onExpr F elt) generators
  | .generator elt generators =>
    F.expr (.generator elt generators) do
      let generators ← onComprehensions F generators
      return .generator (← onExpr F elt) generators
  | .dictComp key value generators =>
    F.expr (.dictComp key value generators) do
      let generators ← onComprehensions F generators
      let key ← onExpr F key
      return .dictComp key (← onExpr F value) generators
  | .await value => F.expr (.await value) do return .await (← onExpr F value)
  | .verbatim text => F.expr (.verbatim text) (pure (.verbatim text))

/-- Folds the parts of a target that are read. -/
def onTarget (F : Fold m) : Expr → m Expr
  | .tuple items => do return .tuple (← onTargets F items)
  | .list items => do return .list (← onTargets F items)
  | .starred value => do return .starred (← onTarget F value)
  | .subscript value slice => do
    let value ← onExpr F value
    return .subscript value (← onExpr F slice)
  | .attribute value attr => do return .attribute (← onExpr F value) attr
  | other => pure other

def onOption (F : Fold m) : Option Expr → m (Option Expr)
  | none => pure none
  | some e => do return some (← onExpr F e)

def onOptions (F : Fold m) : List (Option Expr) → m (List (Option Expr))
  | [] => pure []
  | e :: rest => do
    let e ← onOption F e
    return e :: (← onOptions F rest)

def onExprs (F : Fold m) : List Expr → m (List Expr)
  | [] => pure []
  | e :: rest => do
    let e ← onExpr F e
    return e :: (← onExprs F rest)

def onTargets (F : Fold m) : List Expr → m (List Expr)
  | [] => pure []
  | e :: rest => do
    let e ← onTarget F e
    return e :: (← onTargets F rest)

def onKeyword (F : Fold m) : Keyword → m Keyword
  | ⟨arg, value⟩ => do return ⟨arg, ← onExpr F value⟩

def onKeywords (F : Fold m) : List Keyword → m (List Keyword)
  | [] => pure []
  | k :: rest => do
    let k ← onKeyword F k
    return k :: (← onKeywords F rest)

def onComprehension (F : Fold m) : Comprehension → m Comprehension
  | ⟨target, iter, ifs, isAsync⟩ => do
    let iter ← onExpr F iter
    let target ← onTarget F target
    return ⟨target, iter, ← onExprs F ifs, isAsync⟩

def onComprehensions (F : Fold m) : List Comprehension → m (List Comprehension)
  | [] => pure []
  | g :: rest => do
    let g ← onComprehension F g
    return g :: (← onComprehensions F rest)

end

mutual

/-- Folds a statement into any number of statements. -/
def onStmt (F : Fold m) : Stmt → m (List Stmt)
  | .expr value => F.stmt (.expr value) do return .expr (← onExpr F value)
  | .assign targets value =>
    F.stmt (.assign targets value) do
      let value ← onExpr F value
      return .assign (← onTargets F targets) value
  | .augAssign target op value =>
    F.stmt (.augAssign target op value) do
      let value ← onExpr F value
      return .augAssign (← onTarget F target) op value
  | .ret value => F.stmt (.ret value) do return .ret (← onOption F value)
  | .delete targets => F.stmt (.delete targets) do return .delete (← onTargets F targets)
  | .raise exc cause =>
    F.stmt (.raise exc cause) do
      let exc ← onOption F exc
      return .raise exc (← onOption F cause)
  | .assert test msg =>
    F.stmt (.assert test msg) do
      let test ← onExpr F test
      return .assert test (← onOption F msg)
  | .pass => F.stmt .pass (pure .pass)
  | .breakLoop => F.stmt .breakLoop (pure .breakLoop)
  | .continueLoop => F.stmt .continueLoop (pure .continueLoop)
  | .global names => F.stmt (.global names) (pure (.global names))
  | .nonlocal names => F.stmt (.nonlocal names) (pure (.nonlocal names))
  | .importNames names => F.stmt (.importNames names) (pure (.importNames names))
  | .importFrom module level names =>
    F.stmt (.importFrom module level names) (pure (.importFrom module level names))
  | .ite test body orelse =>
    F.stmt (.ite test body orelse) do
      let test ← onExpr F test
      let body ← onBody F body
      return .ite test body (← onBody F orelse)
  | .whileLoop test body orelse =>
    F.stmt (.whileLoop test body orelse) do
      let test ← onExpr F test
      let body ← onBody F body
      return .whileLoop test body (← onBody F orelse)
  | .forLoop target iter body orelse isAsync =>
    F.stmt (.forLoop target iter body orelse isAsync) do
      let iter ← onExpr F iter
      let target ← onTarget F target
      let body ← onBody F body
      return .forLoop target iter body (← onBody F orelse) isAsync
  | .tryBlock body handlers orelse finalbody isStar =>
    F.stmt (.tryBlock body handlers orelse finalbody isStar) do
      let body ← onBody F body
      let handlers ← onHandlers F handlers
      let orelse ← onBody F orelse
      return .tryBlock body handlers orelse (← onBody F finalbody) isStar
  | .withBlock items body isAsync =>
    F.stmt (.withBlock items body isAsync) do return .withBlock items (← onBody F body) isAsync
  | .functionDef name params returns body decorators isAsync =>
    F.stmt (.functionDef name params returns body decorators isAsync) do
      let decorators ← onExprs F decorators
      return .functionDef name params returns (← onBody F body) decorators isAsync
  | .classDef name bases keywords body decorators =>
    F.stmt (.classDef name bases keywords body decorators) do
      let decorators ← onExprs F decorators
      let bases ← onExprs F bases
      let keywords ← onKeywords F keywords
      return .classDef name bases keywords (← onBody F body) decorators
  | .verbatim text => F.stmt (.verbatim text) (pure (.verbatim text))

/-- Folds statements in order and puts what they become in a row. -/
def onBody (F : Fold m) : List Stmt → m (List Stmt)
  | [] => pure []
  | s :: rest => do
    let s ← onStmt F s
    return s ++ (← onBody F rest)

def onHandler (F : Fold m) : Handler → m Handler
  | ⟨type, name, body⟩ => do
    let type ← onOption F type
    return ⟨type, name, ← onBody F body⟩

def onHandlers (F : Fold m) : List Handler → m (List Handler)
  | [] => pure []
  | h :: rest => do
    let h ← onHandler F h
    return h :: (← onHandlers F rest)

end

theorem onBody_append [LawfulMonad m] (F : Fold m) (body rest : List Stmt) :
    onBody F (body ++ rest) = (do
      let body ← onBody F body
      return body ++ (← onBody F rest)) := by
  induction body with
  | nil => simp [onBody]
  | cons s body ih =>
    simp only [List.cons_append, onBody, ih, bind_assoc, pure_bind, List.append_assoc]

end Fold

/-- Replaces the names that are read in a program. -/
def Module.renameReads (rename : String → String) (m : Module) : Module :=
  let F : Fold Id :=
    { expr := fun e walk => match e with
        | .name id => pure (.name (rename id))
        | _ => walk
      stmt := fun _ walk => do return [← walk] }
  Id.run (F.onBody m)

end Unmask
