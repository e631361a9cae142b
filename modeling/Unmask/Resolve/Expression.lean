import Unmask.Mock.Basic
import Unmask.Mock.Call

/-!
# Resolving expressions

A session is what is known while a program is resolved: its names, the nodes that could not be
resolved, and how deep code is nested in code. An expression resolves to a mock or stays an
expression.

Literals, known names, signs, sums and differences of integers, `and` and `or` of integers, lists,
subscripts, members and calls are computed when their parts are known; everything else is rebuilt
from its resolved parts. A call of `eval` on known text becomes what that text resolves to.
-/
namespace Unmask

/-- How often code that runs code is followed. -/
def maxNesting : Nat := 32

/-- A node that was left as it is, and why. -/
structure Issue where
  error : MockError
  node : String
  deriving DecidableEq

/-- What an expression resolves to. -/
inductive Resolved where
  | mock (m : Mock)
  | expr (e : Expr)

namespace Resolved

def mock? : Resolved → Option Mock
  | .mock m => some m
  | .expr _ => none

def toExpr : Resolved → Expr
  | .mock m => m.revert
  | .expr e => e

/-- The value that was found; code is no value. -/
def value? : Resolved → Option Value
  | .mock (.value _ v) => some v
  | _ => none

/-- The value if it is an integer or a truth value. -/
def intLike? (r : Resolved) : Option Value :=
  match r.value? with
  | some (.int n) => some (.int n)
  | some (.bool b) => some (.bool b)
  | _ => none

/-- A computed value. `None` stays a literal. -/
def ofValue (v : Value) : Resolved :=
  match Mock.ofValue v with
  | .ok m => .mock m
  | .error _ => .expr (.constant .none)

def display : Resolved → String
  | .mock m => m.display
  | .expr e => e.text

end Resolved

structure Session where
  names : Namespace
  issues : List Issue
  /-- The number of texts being run within each other. -/
  depth : Nat
  /-- The depth of every text that was run, in the order in which they were begun. -/
  descents : List Nat

namespace Session

def start (ns : Namespace) : Session := ⟨ns, [], 0, []⟩

end Session

/-- A computation that reads and changes a session. -/
abbrev Resolving := StateM Session

namespace Resolving

/-- Notes a node that is left as it is. -/
def record (error : MockError) (node : Resolved) : Resolving Unit :=
  modify fun s => { s with issues := s.issues ++ [⟨error, node.display⟩] }

/-- Runs within code that is run by code. -/
def deeper {α : Type} (x : Resolving α) : Resolving α := do
  modify fun s => { s with depth := s.depth + 1, descents := s.descents ++ [s.depth + 1] }
  let a ← x
  modify fun s => { s with depth := s.depth - 1 }
  return a

def bind (name : String) (m : Mock) : Resolving Unit :=
  modify fun s => { s with names := s.names.bind name m }

end Resolving

/-- How code within code is resolved. -/
structure Expansion where
  expr : Expr → Resolving Resolved
  body : List Stmt → Resolving (List Stmt)

namespace Resolve

def constant (c : Constant) : Resolved :=
  match Value.ofConstant? c with
  | some .none => .expr (.constant c)
  | some v => .ofValue v
  | none => .expr (.constant c)

def name (id : String) : Resolving Resolved := do
  match (← get).names.get? id with
  | some m => return .mock m
  | none => return .expr (.name id)

def unary (op : UnaryOp) (operand : Resolved) : Resolving Resolved := do
  let residual := Resolved.expr (.unary op operand.toExpr)
  match operand.intLike? with
  | none => return residual
  | some v =>
    match v.unary op with
    | .ok result => return .ofValue result
    | .error error =>
      Resolving.record (.evaluation error) operand
      return residual

/-- Only sums and differences of integers are computed. -/
def binary (left : Resolved) (op : BinaryOp) (right : Resolved) : Resolving Resolved := do
  let residual := Resolved.expr (.binary left.toExpr op right.toExpr)
  if op == .add || op == .sub then
    match left.intLike?, right.intLike? with
    | some v, some w =>
      match v.binary op w with
      | .ok result => return .ofValue result
      | .error error =>
        Resolving.record (.evaluation error) left
        return residual
    | _, _ => return residual
  else return residual

/-- Whether an operand decides a chain, so that the operands behind it do not count. -/
def decides (op : BoolOp) (operand : Resolved) : Bool :=
  let truthy := (operand.value?.map Value.truthy).getD false
  match op with
  | .and => !truthy
  | .or => truthy

/-- The first operand that decides, or else the last one. -/
def deciding? (op : BoolOp) : List Resolved → Option Resolved
  | [] => none
  | [last] => some last
  | r :: rest => if decides op r then some r else deciding? op rest

def chain (op : BoolOp) (operands : List Resolved) : Resolved :=
  if operands.all fun r => r.intLike?.isSome then
    (deciding? op operands).getD (.expr (.bool op []))
  else .expr (.bool op (operands.map Resolved.toExpr))

def member (object : Resolved) (attr : String) : Resolving Resolved := do
  let residual := Resolved.expr (.attribute object.toExpr attr)
  match object with
  | .expr _ => return residual
  | .mock m =>
    match m.getAttr attr with
    | .ok member => return .mock member
    | .error error =>
      Resolving.record error object
      return residual

def list (items : List Resolved) : Resolved :=
  match items.mapM Resolved.value? with
  | some values => .ofValue (.list values)
  | none => .expr (.list (items.map Resolved.toExpr))

/-- Whether a parameter list takes arguments that are not used by name: none, one plain name, or
one starred name. -/
def isIgnored (params : String) : Bool :=
  let trimmed := Text.trimChars params.toList
  let name := match trimmed with
    | '*' :: rest => rest
    | cs => cs
  trimmed.isEmpty ||
    (!name.isEmpty && name.all fun c => c == '_' || Text.isAlphanumeric c)

def lambda (params : String) (body : Resolved) : Resolved :=
  match body.mock?.bind Mock.scope? with
  | some s =>
    if isIgnored params then .mock (.getter s) else .expr (.lambda params body.toExpr)
  | none => .expr (.lambda params body.toExpr)

/-- The bound that a resolved expression is: `some none` if it is absent, `none` if not known. -/
def bound? : Option Resolved → Option (Option Int)
  | none => some none
  | some r => (r.intLike?.bind Value.asInt?).map some

def bounds? (lower upper step : Option Resolved) : Option Value.Bounds :=
  match bound? lower, bound? upper, bound? step with
  | some l, some u, some s => some ⟨l, u, s⟩
  | _, _, _ => none

def slice (object : Resolved) (lower upper step : Option Resolved) : Resolving Resolved := do
  let residual := Resolved.expr (.subscript object.toExpr
    (.slice (lower.map Resolved.toExpr) (upper.map Resolved.toExpr) (step.map Resolved.toExpr)))
  match object.value?, bounds? lower upper step with
  | some sequence, some bounds =>
    match sequence.slice bounds with
    | .ok result => return .ofValue result
    | .error error =>
      Resolving.record (.evaluation error) object
      return residual
  | _, _ => return residual

def position? (index : Mock) : Option Value :=
  match index.value? with
  | some (.int n) => some (.int n)
  | some (.bool b) => some (.bool b)
  | _ => none

/-- The item of a mock under a key or at a position. -/
def item (m index : Mock) (ns : Namespace) : Except MockError Mock :=
  match m.value?, position? index with
  | some sequence, some position =>
    match sequence.index position with
    | .ok v => Mock.ofValue v
    | .error error => .error (.evaluation error)
  | _, _ =>
    match index.text? with
    | some key => m.getItem key ns
    | none => .error (.keyNotFound m.name ((index.value?.map Value.repr).getD index.name))

def subscript (object key : Resolved) : Resolving Resolved := do
  let residual := Resolved.expr (.subscript object.toExpr key.toExpr)
  match object, key with
  | .mock m, .mock index =>
    match item m index (← get).names with
    | .ok found => return .mock found
    | .error error =>
      Resolving.record error object
      return residual
  | _, _ => return residual

/-- A keyword argument with its name, which is absent in a spread. -/
abbrev NamedArgument := Option String × Resolved

def keyword (a : NamedArgument) : Keyword := ⟨a.1, a.2.toExpr⟩

def residualCall (callee : Resolved) (args : List Resolved) (named : List NamedArgument) : Expr :=
  .call callee.toExpr (args.map Resolved.toExpr) (named.map keyword)

def namedMock? (a : NamedArgument) : Option (String × Mock) :=
  a.1.bind fun name => a.2.mock?.map fun m => (name, m)

/-- The arguments if all of them are known. -/
def arguments? (args : List Resolved) (named : List NamedArgument) : Option Arguments :=
  match args.mapM Resolved.mock?, named.mapM namedMock? with
  | some positional, some keywords => some ⟨positional, keywords⟩
  | _, _ => none

/-- The text that is the only argument. -/
def onlySource? (args : List Resolved) (named : List NamedArgument) : Option String :=
  match args, named with
  | [.mock m], [] => m.source?
  | _, _ => none

def expandEval (within : Option Expansion) (source : String) :
    Resolving (Except MockError Resolved) :=
  let invalid fault := Except.error (MockError.invalidArguments Builtin.eval.name fault)
  match within with
  | none => return invalid .tooDeep
  | some expansion =>
    match Expr.parse source with
    | .error error => return invalid (.badSource error)
    | .ok e => return .ok (← Resolving.deeper (expansion.expr e))

def isBuiltin (b : Builtin) : Mock → Bool
  | .builtin c => b == c
  | _ => false

def callEval (within : Option Expansion) (source : String) (callee : Resolved) (residual : Expr) :
    Resolving Resolved := do
  match ← expandEval within source with
  | .ok r => return r
  | .error error =>
    Resolving.record error callee
    return .expr residual

def callKnown (m : Mock) (a : Arguments) (callee : Resolved) (residual : Expr) :
    Resolving Resolved := do
  match m.call a with
  | .ok (some result) => return .mock result
  | .ok none => return .expr residual
  | .error error =>
    Resolving.record error callee
    return .expr residual

def call (within : Option Expansion) (callee : Resolved) (args : List Resolved)
    (named : List NamedArgument) : Resolving Resolved := do
  let residual := residualCall callee args named
  match callee with
  | .expr _ => return .expr residual
  | .mock m =>
    match if isBuiltin .eval m then onlySource? args named else none with
    | some source => callEval within source callee residual
    | none =>
      if !m.hasBehaviour then
        Resolving.record (.notCallable m.name) callee
        return .expr residual
      else
        match arguments? args named with
        | some a => callKnown m a callee residual
        | none => return .expr residual

mutual

def expr (within : Option Expansion) : Expr → Resolving Resolved
  | .constant c => return constant c
  | .name id => name id
  | .subscript value (.slice lower upper step) => do
    let object ← expr within value
    let lower ← option within lower
    let upper ← option within upper
    slice object lower upper (← option within step)
  | .subscript value key => do
    let object ← expr within value
    subscript object (← expr within key)
  | .unary op operand => do unary op (← expr within operand)
  | .binary left op right => do
    let left ← expr within left
    binary left op (← expr within right)
  | .bool op values => return chain op (← exprs within values)
  | .attribute value attr => do member (← expr within value) attr
  | .call func args keywords => do
    let callee ← expr within func
    let args ← exprs within args
    call within callee args (← namedArguments within keywords)
  | .list items => return list (← exprs within items)
  | .lambda params body => return lambda params (← expr within body)
  | .slice lower upper step => do
    let lower ← option within lower
    let upper ← option within upper
    let step ← option within step
    return .expr (.slice (lower.map Resolved.toExpr) (upper.map Resolved.toExpr)
      (step.map Resolved.toExpr))
  | .compare left ops comparators => do
    let left ← expr within left
    let comparators ← exprs within comparators
    return .expr (.compare left.toExpr ops (comparators.map Resolved.toExpr))
  | .conditional test body orelse => do
    let test ← expr within test
    let body ← expr within body
    let orelse ← expr within orelse
    return .expr (.conditional test.toExpr body.toExpr orelse.toExpr)
  | .named target value => return .expr (.named target (← expr within value).toExpr)
  | .tuple items => return .expr (.tuple ((← exprs within items).map Resolved.toExpr))
  | .set items => return .expr (.set ((← exprs within items).map Resolved.toExpr))
  | .dict keys values => do
    let keys ← options within keys
    let values ← exprs within values
    return .expr (.dict (keys.map (·.map Resolved.toExpr)) (values.map Resolved.toExpr))
  | .starred value => return .expr (.starred (← expr within value).toExpr)
  | .listComp elt generators => do
    let generators ← comprehensions within generators
    return .expr (.listComp (← expr within elt).toExpr generators)
  | .setComp elt generators => do
    let generators ← comprehensions within generators
    return .expr (.setComp (← expr within elt).toExpr generators)
  | .generator elt generators => do
    let generators ← comprehensions within generators
    return .expr (.generator (← expr within elt).toExpr generators)
  | .dictComp key value generators => do
    let generators ← comprehensions within generators
    let key ← expr within key
    return .expr (.dictComp key.toExpr (← expr within value).toExpr generators)
  | .await value => return .expr (.await (← expr within value).toExpr)
  | .verbatim text => return .expr (.verbatim text)

def option (within : Option Expansion) : Option Expr → Resolving (Option Resolved)
  | none => return none
  | some e => return some (← expr within e)

def options (within : Option Expansion) : List (Option Expr) → Resolving (List (Option Resolved))
  | [] => return []
  | e :: rest => do
    let e ← option within e
    return e :: (← options within rest)

def exprs (within : Option Expansion) : List Expr → Resolving (List Resolved)
  | [] => return []
  | e :: rest => do
    let e ← expr within e
    return e :: (← exprs within rest)

def namedArgument (within : Option Expansion) : Keyword → Resolving NamedArgument
  | ⟨arg, value⟩ => return (arg, ← expr within value)

def namedArguments (within : Option Expansion) : List Keyword → Resolving (List NamedArgument)
  | [] => return []
  | k :: rest => do
    let k ← namedArgument within k
    return k :: (← namedArguments within rest)

/-- Resolves the parts of a target that are read. -/
def target (within : Option Expansion) : Expr → Resolving Expr
  | .tuple items => return .tuple (← targets within items)
  | .list items => return .list (← targets within items)
  | .starred value => return .starred (← target within value)
  | .subscript value slice => do
    let value ← expr within value
    return .subscript value.toExpr (← expr within slice).toExpr
  | .attribute value attr => return .attribute (← expr within value).toExpr attr
  | other => return other

def targets (within : Option Expansion) : List Expr → Resolving (List Expr)
  | [] => return []
  | e :: rest => do
    let e ← target within e
    return e :: (← targets within rest)

def comprehension (within : Option Expansion) : Comprehension → Resolving Comprehension
  | ⟨goal, iter, ifs, isAsync⟩ => do
    let iter ← expr within iter
    let goal ← target within goal
    let ifs ← exprs within ifs
    return ⟨goal, iter.toExpr, ifs.map Resolved.toExpr, isAsync⟩

def comprehensions (within : Option Expansion) : List Comprehension → Resolving (List Comprehension)
  | [] => return []
  | g :: rest => do
    let g ← comprehension within g
    return g :: (← comprehensions within rest)

end

end Resolve

end Unmask
