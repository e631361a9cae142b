import Unmask.Mock.Basic
import Unmask.Resolve.Expression
import Unmask.Syntax.Fold

/-!
# Resolving programs

A program is rebuilt with its expressions resolved. Two kinds of statements vanish: a call of `exec`
on known text gives way to the statements of that text, and an assignment to an item of a scope
becomes a binding of the session when everything in it is known. The program may still read a name
whose binding has vanished, so the cleanup puts what it is bound to in its place.
-/
namespace Unmask

namespace Resolve

/-- Resolves the program that `exec` is called on. -/
def expandExec (within : Option Expansion) (source : String) :
    Resolving (Except MockError (List Stmt)) :=
  let invalid fault := Except.error (MockError.invalidArguments Builtin.exec.name fault)
  match within with
  | none => return invalid .tooDeep
  | some expansion =>
    match Module.parse source with
    | .error error => return invalid (.badSource error)
    | .ok m => return .ok (← Resolving.deeper (expansion.body m))

/-- The text that a call runs if it is a call of `exec`. -/
def execSource? (callee : Resolved) (args : List Resolved) (named : List NamedArgument) :
    Option String :=
  match callee with
  | .mock m => if isBuiltin .exec m then onlySource? args named else none
  | .expr _ => none

def callStatement (within : Option Expansion) (func : Expr) (args : List Expr)
    (keywords : List Keyword) : Resolving (List Stmt) := do
  let callee ← expr within func
  let args ← exprs within args
  let named ← namedArguments within keywords
  match execSource? callee args named with
  | none => return [.expr (← call within callee args named).toExpr]
  | some source =>
    match ← expandExec within source with
    | .ok body => return body
    | .error error =>
      Resolving.record error callee
      return [.expr (residualCall callee args named)]

/-- The name and the mock that an assignment to an item binds. -/
def binding? (container key stored : Resolved) : Option (String × Mock) :=
  match container, key, stored with
  | .mock c, .mock k, .mock m =>
    if c.scope?.isSome then k.text?.map fun name => (name, m) else none
  | _, _, _ => none

def assignStatement (within : Option Expansion) (goal value : Expr) : Resolving (List Stmt) := do
  let stored ← expr within value
  match goal with
  | .subscript container key =>
    let container ← expr within container
    let key ← expr within key
    match binding? container key stored with
    | some (name, m) =>
      Resolving.bind name m
      return []
    | none => return [.assign [.subscript container.toExpr key.toExpr] stored.toExpr]
  | goal => return [.assign [← target within goal] stored.toExpr]

def fold (within : Option Expansion) : Fold Resolving where
  expr e _ := do return (← expr within e).toExpr
  stmt s walk :=
    match s with
    | .expr (.call func args keywords) => callStatement within func args keywords
    | .assign [goal] value => assignStatement within goal value
    | _ => do return [← walk]

/-- How code is resolved that may run code so many levels deep. -/
def expansion : Nat → Option Expansion
  | 0 => none
  | n + 1 => some ⟨expr (expansion n), (fold (expansion n)).onBody⟩

def present : Resolving (Option Expansion) := do
  return expansion (maxNesting - (← get).depth)

end Resolve

namespace Session

def resolve (s : Session) (e : Expr) : Resolved × Session :=
  (do Resolve.expr (← Resolve.present) e : Resolving Resolved).run s

def transform (s : Session) (m : Module) : Module × Session :=
  (do (Resolve.fold (← Resolve.present)).onBody m : Resolving Module).run s

end Session

def Namespace.substitute (ns : Namespace) (id : String) : Expr :=
  match ns.local? id with
  | some m => m.revert
  | none => .name id

def Namespace.cleanup (ns : Namespace) : Fold Id where
  expr e walk :=
    match e with
    | .name id => ns.substitute id
    | _ => walk
  stmt _ walk := [walk]

/-- Replaces the names that are bound in a namespace. -/
def Module.clean (ns : Namespace) (m : Module) : Module := ns.cleanup.onBody m

end Unmask
