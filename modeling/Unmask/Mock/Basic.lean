import Unmask.Named
import Unmask.Syntax.Grammar.Statement
import Unmask.Value.Arithmetic
import Unmask.Value.Basic

/-!
# Mocks

A mock stands for an object of a running program as far as it is known: a value, source text that
was compiled, or one of the few functions, modules and scopes through which obfuscated programs
reach their code. A namespace holds the mocks that a program has bound to names, in front of those
that every program has; binding a name again replaces what it was bound to.
-/
namespace Unmask

inductive Builtin where
  | globals | locals | vars | getattr | dir | importModule | float | str | bool | compile | exec
  | eval | unhexlify
  deriving DecidableEq, Repr

namespace Builtin

def name : Builtin → String
  | .globals => "globals"
  | .locals => "locals"
  | .vars => "vars"
  | .getattr => "getattr"
  | .dir => "dir"
  | .importModule => "__import__"
  | .float => "float"
  | .str => "str"
  | .bool => "bool"
  | .compile => "compile"
  | .exec => "exec"
  | .eval => "eval"
  | .unhexlify => "unhexlify"

def base : List Builtin :=
  [.globals, .getattr, .dir, .vars, .locals, .importModule, .float, .str, .compile, .bool, .exec,
    .eval]

def ofName? (name : String) : Option Builtin :=
  (base ++ [Builtin.unhexlify]).find? fun b => b.name == name

theorem ofName?_name (b : Builtin) : ofName? b.name = some b := by cases b <;> decide +kernel

/-- Whether a call can be evaluated on mocks alone. Code is expanded where it is called instead. -/
def hasBehaviour : Builtin → Bool
  | .exec => false
  | .eval => false
  | _ => true

end Builtin

inductive Library where
  | builtins | binascii
  deriving DecidableEq, Repr

namespace Library

def name : Library → String
  | .builtins => "builtins"
  | .binascii => "binascii"

def ofName? (name : String) : Option Library :=
  [Library.builtins, .binascii].find? fun l => l.name == name

theorem ofName?_name (l : Library) : ofName? l.name = some l := by cases l <;> decide +kernel

def members : Library → List String
  | .builtins => Builtin.base.map Builtin.name ++ ["True", "False"]
  | .binascii => [Builtin.unhexlify.name]

end Library

/-- The three functions that give the dictionary of all names. -/
inductive Scope where
  | globals | locals | vars
  deriving DecidableEq, Repr

namespace Scope

def name : Scope → String
  | .globals => "globals"
  | .locals => "locals"
  | .vars => "vars"

def ofName? (name : String) : Option Scope :=
  [Scope.globals, .locals, .vars].find? fun s => s.name == name

theorem ofName?_name (s : Scope) : ofName? s.name = some s := by cases s <;> decide +kernel

end Scope

inductive Method where
  | join | index | getItem | neg | pos | decode
  deriving DecidableEq, Repr

namespace Method

def name : Method → String
  | .join => "join"
  | .index => "index"
  | .getItem => "__getitem__"
  | .neg => "__neg__"
  | .pos => "__pos__"
  | .decode => "decode"

def ofKind : Kind → List Method
  | .str => [.join]
  | .list => [.getItem, .index]
  | .int => [.neg, .pos]
  | .bool => [.neg, .pos]
  | .bytes => [.decode]
  | _ => []

end Method

/-- An object as far as it is known. -/
inductive Mock where
  /-- A value other than `None`, with the name under which it is shown. -/
  | value (name : String) (v : Value)
  /-- Compiled source text. -/
  | code (source : String)
  | builtin (b : Builtin)
  | library (l : Library)
  | scope (s : Scope)
  /-- A function that gives a scope whatever its arguments. -/
  | getter (s : Scope)
  /-- A method with the value that it belongs to. -/
  | method (receiver : Value) (m : Method)
  | unknown (name : String)

/-- A coarse sort of mocks. -/
inductive Tag where
  | str | int | bool | float | bytes | list | code | names | callable | unknown
  deriving DecidableEq, Repr

def Tag.name : Tag → String
  | .str => "str"
  | .int => "int"
  | .bool => "bool"
  | .float => "float"
  | .bytes => "bytes"
  | .list => "list"
  | .code => "code"
  | .names => "namespace"
  | .callable => "callable"
  | .unknown => "unknown"

def Tag.ofKind : Kind → Tag
  | .str => .str
  | .int => .int
  | .bool => .bool
  | .float => .float
  | .bytes => .bytes
  | .list => .list
  | _ => .unknown

namespace Mock

def name : Mock → String
  | .value name _ => name
  | .code _ => "code"
  | .builtin b => b.name
  | .library l => l.name
  | .scope s => s.name
  | .getter s => "fake_" ++ s.name
  | .method receiver m => receiver.kind.name ++ "." ++ m.name
  | .unknown name => name

def tag : Mock → Tag
  | .value _ v => Tag.ofKind v.kind
  | .code _ => .code
  | .builtin _ => .callable
  | .library _ => .names
  | .scope _ => .names
  | .getter _ => .callable
  | .method _ _ => .callable
  | .unknown _ => .unknown

/-- The value that a mock holds: its own, its source text, or that of the method's receiver. -/
def payload? : Mock → Option Value
  | .value _ v => some v
  | .code source => some (.str source)
  | .method receiver _ => some receiver
  | _ => none

/-- The value that a mock is used as. -/
def value? : Mock → Option Value
  | .value _ v => some v
  | .code source => some (.str source)
  | _ => none

def text? : Mock → Option String
  | .value _ v => v.asText?
  | _ => none

/-- The text that can be run as a program. -/
def source? : Mock → Option String
  | .value _ v => v.asText?
  | .code source => some source
  | _ => none

def scope? : Mock → Option Scope
  | .scope s => some s
  | _ => none

/-- Two mocks are taken for the same when they have the same tag and hold the same value. -/
def same (a b : Mock) : Bool :=
  a.tag == b.tag &&
    match a.payload?, b.payload? with
    | some v, some w => v.same w
    | none, none => true
    | _, _ => false

/-- Whether a call can have a result. -/
def hasBehaviour : Mock → Bool
  | .builtin b => b.hasBehaviour
  | .method _ _ => true
  | .getter _ => true
  | _ => false

def members : Mock → List String
  | .value _ v => (Method.ofKind v.kind).map Method.name
  | .library l => l.members
  | _ => []

def display (m : Mock) : String :=
  match m.payload? with
  | some v => "<" ++ m.name ++ ": " ++ v.repr ++ ">"
  | none => "<" ++ m.name ++ ">"

def ofBaseName? (name : String) : Option Mock :=
  if name == "True" then some (.value "True" (.bool true))
  else if name == "False" then some (.value "False" (.bool false))
  else (Builtin.base.find? fun b => b.name == name).map Mock.builtin

def baseNames : List String := Library.builtins.members

end Mock

structure Namespace where
  /-- The bindings in the order in which the names were first bound. -/
  locals : Named Mock

namespace Namespace

def empty : Namespace := ⟨[]⟩

def local? (ns : Namespace) (name : String) : Option Mock := ns.locals.lookup name

def get? (ns : Namespace) (name : String) : Option Mock :=
  (ns.local? name).or (Mock.ofBaseName? name)

def bind (ns : Namespace) (name : String) (m : Mock) : Namespace := ⟨ns.locals.put name m⟩

theorem local?_bind (ns : Namespace) (name : String) (m : Mock) (other : String) :
    (ns.bind name m).local? other = if other = name then some m else ns.local? other :=
  Named.lookup_put ns.locals name m other

def size (ns : Namespace) : Nat := ns.locals.length

def isEmpty (ns : Namespace) : Bool := ns.locals.isEmpty

end Namespace

namespace Mock

/-- An expression that denotes what a mock stands for. -/
def revert : Mock → Expr
  | .value _ v => v.toExpr
  | .code source =>
    .apply (.name Builtin.compile.name) [.str source, .str "<string>", .str "exec"]
  | .builtin b => .name b.name
  | .library l => .apply (.name Builtin.importModule.name) [.str l.name]
  | .scope s => .apply (.name s.name) []
  | .getter s => .lambda "*_" (.apply (.name s.name) [])
  | .method receiver m => .attribute receiver.toExpr m.name
  | .unknown name => .name name

end Mock

/-- What is wrong with the arguments of a call. -/
inductive ArgumentFault where
  | noArguments
  | attributeNotText
  | notTwo
  | notOne
  | moduleNotText
  | sourceNotUtf8
  | noSource
  | notHexText
  | noKeywords
  /-- A mock that has no value, as it is displayed, or a kind that is no number. -/
  | notConvertible (what : String)
  | moreThanOne
  | notTextList
  | itemNotText
  | noValue
  | noIndex
  | otherEncoding
  | otherReceiver
  | tooDeep
  | badSource (error : SyntaxError)
  deriving DecidableEq

def ArgumentFault.message : ArgumentFault → String
  | .noArguments => "arguments are not supported"
  | .attributeNotText => "attribute name must be a str"
  | .notTwo => "expected exactly two positional arguments"
  | .notOne => "expected exactly one argument"
  | .moduleNotText => "module name must be a str"
  | .sourceNotUtf8 => "source bytes are not UTF-8"
  | .noSource => "source must be str or bytes"
  | .notHexText => "argument must be bytes or an ASCII str"
  | .noKeywords => "keyword arguments are not supported"
  | .notConvertible what => "cannot convert " ++ what
  | .moreThanOne => "expected at most one argument"
  | .notTextList => "expected a list of str"
  | .itemNotText => "sequence item is not a str"
  | .noValue => "expected one value"
  | .noIndex => "expected one index"
  | .otherEncoding => "only UTF-8 decoding is supported"
  | .otherReceiver => "method does not apply to this receiver"
  | .tooDeep => "nesting too deep"
  | .badSource error => error.message

/-- Why a mock has no member, item or result. -/
inductive MockError where
  | notCallable (name : String)
  | keyNotFound (name key : String)
  | attributeNotFound (name attr : String)
  /-- Values of this kind have no mock. -/
  | unsupportedKind (kind : Kind)
  | invalidArguments (name : String) (fault : ArgumentFault)
  | evaluation (error : EvalError)
  deriving DecidableEq

def MockError.message : MockError → String
  | .notCallable name => s!"mock '{name}' is not callable"
  | .keyNotFound name key => s!"key '{key}' not found in '{name}'"
  | .attributeNotFound name attr => s!"attribute '{attr}' not found on '{name}'"
  | .unsupportedKind kind => s!"values of type '{kind.name}' cannot be mocked"
  | .invalidArguments name fault => s!"invalid arguments for '{name}': {fault.message}"
  | .evaluation error => error.message

end Unmask
