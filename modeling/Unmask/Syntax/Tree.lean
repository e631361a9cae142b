import Unmask.Text.Basic
import Unmask.Text.Utf8

/-!
# Syntax trees

Programs as trees of statements and expressions, and the operators of expressions with the symbols
they are written with. What the tree does not model is kept as text, in the `verbatim` nodes and in
the texts of parameter lists, annotations and `with` items.
-/
namespace Unmask

inductive BinaryOp where
  | add | sub | mult | matMult | div | mod | pow | shiftLeft | shiftRight
  | bitOr | bitXor | bitAnd | floorDiv
  deriving DecidableEq, Repr

def BinaryOp.symbol : BinaryOp → String
  | .add => "+"
  | .sub => "-"
  | .mult => "*"
  | .matMult => "@"
  | .div => "/"
  | .mod => "%"
  | .pow => "**"
  | .shiftLeft => "<<"
  | .shiftRight => ">>"
  | .bitOr => "|"
  | .bitXor => "^"
  | .bitAnd => "&"
  | .floorDiv => "//"

def BinaryOp.all : List BinaryOp :=
  [.add, .sub, .mult, .matMult, .div, .mod, .pow, .shiftLeft, .shiftRight, .bitOr, .bitXor, .bitAnd,
    .floorDiv]

/-- The operator with a symbol; one `=` at the end, as in augmented assignments, is ignored. -/
def BinaryOp.ofSymbol? (symbol : String) : Option BinaryOp :=
  let chars := symbol.toList
  let plain := if chars.getLast? == some '=' then chars.dropLast else chars
  BinaryOp.all.find? fun op => op.symbol.toList == plain

theorem BinaryOp.ofSymbol?_symbol (op : BinaryOp) : ofSymbol? op.symbol = some op := by
  cases op <;> decide +kernel

inductive UnaryOp where
  | invert | not | plus | minus
  deriving DecidableEq, Repr

def UnaryOp.symbol : UnaryOp → String
  | .invert => "~"
  | .not => "not"
  | .plus => "+"
  | .minus => "-"

/-- The two operators that stop at the first deciding operand. -/
inductive BoolOp where
  | and | or
  deriving DecidableEq, Repr

def BoolOp.symbol : BoolOp → String
  | .and => "and"
  | .or => "or"

inductive CompareOp where
  | eq | notEq | lt | le | gt | ge | is | isNot | isIn | notIn
  deriving DecidableEq, Repr

def CompareOp.symbol : CompareOp → String
  | .eq => "=="
  | .notEq => "!="
  | .lt => "<"
  | .le => "<="
  | .gt => ">"
  | .ge => ">="
  | .is => "is"
  | .isNot => "is not"
  | .isIn => "in"
  | .notIn => "not in"

/-- The operator with a symbol. Blanks around and within it do not matter, and `<>` is an older
spelling of `!=`. -/
def CompareOp.ofSymbol? (symbol : String) : Option CompareOp :=
  match (Text.words symbol.toList).map String.ofList with
  | ["=="] => some .eq
  | ["!="] => some .notEq
  | ["<>"] => some .notEq
  | ["<"] => some .lt
  | ["<="] => some .le
  | [">"] => some .gt
  | [">="] => some .ge
  | ["is"] => some .is
  | ["is", "not"] => some .isNot
  | ["in"] => some .isIn
  | ["not", "in"] => some .notIn
  | _ => none

theorem CompareOp.ofSymbol?_symbol (op : CompareOp) : ofSymbol? op.symbol = some op := by
  cases op <;> decide +kernel

inductive Constant where
  | none
  | bool (value : Bool)
  | int (value : Int)
  | float (value : Float)
  | str (value : String)
  | bytes (value : Bytes)
  | ellipsis

mutual

inductive Expr where
  | name (id : String)
  | constant (value : Constant)
  | attribute (value : Expr) (attr : String)
  | subscript (value slice : Expr)
  /-- `lower:upper:step`, within a subscript only. -/
  | slice (lower upper step : Option Expr)
  | call (func : Expr) (args : List Expr) (keywords : List Keyword)
  | binary (left : Expr) (op : BinaryOp) (right : Expr)
  | unary (op : UnaryOp) (operand : Expr)
  /-- A chain of one operator over at least two operands. -/
  | bool (op : BoolOp) (values : List Expr)
  /-- A chain of comparisons; `ops` and `comparators` go together. -/
  | compare (left : Expr) (ops : List CompareOp) (comparators : List Expr)
  | conditional (test body orelse : Expr)
  /-- A lambda with its parameter list as written. -/
  | lambda (params : String) (body : Expr)
  /-- `target := value`. -/
  | named (target : String) (value : Expr)
  | list (items : List Expr)
  | tuple (items : List Expr)
  | set (items : List Expr)
  /-- A display of pairs; an absent key marks a spread `**value`. -/
  | dict (keys : List (Option Expr)) (values : List Expr)
  | starred (value : Expr)
  | listComp (elt : Expr) (generators : List Comprehension)
  | setComp (elt : Expr) (generators : List Comprehension)
  | generator (elt : Expr) (generators : List Comprehension)
  | dictComp (key value : Expr) (generators : List Comprehension)
  | await (value : Expr)
  /-- An expression kept as written. -/
  | verbatim (text : String)

/-- A keyword argument; the name is absent in a spread `**value`. -/
structure Keyword where
  arg : Option String
  value : Expr

/-- One `for target in iter if …` clause. -/
structure Comprehension where
  target : Expr
  iter : Expr
  ifs : List Expr
  isAsync : Bool

end

instance : Inhabited Expr := ⟨.tuple []⟩

/-- A name in an import, with the name it is bound to if that is another one. -/
structure Alias where
  name : String
  asname : Option String
  deriving DecidableEq

mutual

inductive Stmt where
  | expr (value : Expr)
  | assign (targets : List Expr) (value : Expr)
  | augAssign (target : Expr) (op : BinaryOp) (value : Expr)
  | ret (value : Option Expr)
  | delete (targets : List Expr)
  | raise (exc cause : Option Expr)
  | assert (test : Expr) (msg : Option Expr)
  | pass
  | breakLoop
  | continueLoop
  | global (names : List String)
  | nonlocal (names : List String)
  | importNames (names : List Alias)
  /-- An import of names from a module; `level` counts the leading dots. -/
  | importFrom (module : Option String) (level : Nat) (names : List Alias)
  /-- A conditional; an `elif` is a conditional alone in `orelse`. -/
  | ite (test : Expr) (body orelse : List Stmt)
  | whileLoop (test : Expr) (body orelse : List Stmt)
  | forLoop (target iter : Expr) (body orelse : List Stmt) (isAsync : Bool)
  | tryBlock (body : List Stmt) (handlers : List Handler) (orelse finalbody : List Stmt)
      (isStar : Bool)
  /-- A `with` block, its items as written. -/
  | withBlock (items : String) (body : List Stmt) (isAsync : Bool)
  /-- A function, its parameters (with parentheses) and annotation as written. -/
  | functionDef (name params : String) (returns : Option String) (body : List Stmt)
      (decorators : List Expr) (isAsync : Bool)
  | classDef (name : String) (bases : List Expr) (keywords : List Keyword) (body : List Stmt)
      (decorators : List Expr)
  /-- A statement kept as written. -/
  | verbatim (text : String)

structure Handler where
  type : Option Expr
  name : Option String
  body : List Stmt

end

instance : Inhabited Stmt := ⟨.pass⟩

/-- A program: its statements in order. -/
abbrev Module := List Stmt

namespace Expr

def str (s : String) : Expr := .constant (.str s)

def bytes (b : Bytes) : Expr := .constant (.bytes b)

def int (n : Int) : Expr := .constant (.int n)

/-- A call with positional arguments only. -/
def apply (func : Expr) (args : List Expr) : Expr := .call func args []

def name? : Expr → Option String
  | .name id => some id
  | _ => Option.none

def isCallOf (id : String) : Expr → Bool
  | .call (.name f) _ _ => f == id
  | _ => false

/-- The module that `__import__('…')` gives. -/
def imported? : Expr → Option String
  | .call (.name "__import__") [.constant (.str module)] _ => some module
  | _ => none

/-- The arguments of `__import__('module').function(…)`. -/
def moduleCall? (module function : String) : Expr → Option (List Expr)
  | .call (.attribute object attr) args _ =>
    if attr == function && object.imported? == some module then some args else none
  | _ => none

/-- The only argument of `id(…)`. -/
def soleArgument? (id : String) : Expr → Option Expr
  | .call (.name f) [arg] _ => if f == id then some arg else none
  | _ => none

/-- The only argument of `object.function(…)`. -/
def dottedArgument? (object function : String) : Expr → Option Expr
  | .call (.attribute (.name id) attr) [arg] _ =>
    if id == object && attr == function then some arg else none
  | _ => none

def str? : Expr → Option String
  | .constant (.str s) => some s
  | _ => none

def bytes? : Expr → Option Bytes
  | .constant (.bytes b) => some b
  | _ => none

end Expr

end Unmask
