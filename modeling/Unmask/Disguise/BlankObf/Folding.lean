import Unmask.Codec.Basic
import Unmask.Codec.Lzma.Container
import Unmask.Codec.Radix
import Unmask.Codec.Zlib
import Unmask.Decimal
import Unmask.Syntax.Fold
import Unmask.Syntax.Grammar.Statement
import Unmask.Syntax.Tree
import Unmask.Value.Compare

/-!
# Folding constants

The fold by which layers are read: expressions on literals become literals, decoding included, and
an assignment of a literal to a name vanishes, the literal taking the place of the name from there
on. Text given to `eval` is read and folded in its turn, with the names that are bound. Such texts
may lie within each other without end; they are followed so many levels deep, and beyond there is
no result.
-/
namespace Unmask.BlankObf

open Value (ofExpr?)

def octet? (n : Int) : Option UInt8 :=
  if 0 ≤ n && n < 256 then some (UInt8.ofNat n.toNat) else none

def octets? : Value → Option Bytes
  | .bytes b => some b
  | .list items => items.mapM fun v => v.asInt?.bind octet?
  | _ => none

def decoders : List ((String × String) × (Bytes → Except DecodeError Bytes)) :=
  [(("base64", "b64decode"), Radix.decodeBase64),
    (("base64", "b32decode"), Radix.decodeBase32),
    (("base64", "b16decode"), Hex.decodeBase16),
    (("zlib", "decompress"), Zlib.decompress),
    (("lzma", "decompress"), Lzma.decompress),
    (("binascii", "unhexlify"), Hex.decodeSpaced),
    (("bytes", "fromhex"), Hex.decodeSpaced)]

/-- The octets that a value gives to a decoder; text has to be ASCII. -/
def encoded? : Value → Option Bytes
  | .bytes b => some b
  | .str s => if s.toList.all fun c => c.toNat < 0x80 then some (Text.Utf8.encode s) else none
  | _ => none

def decodeCall? (module function : String) (arg : Expr) : Option Expr := do
  let decode ← decoders.lookup (module, function)
  let data ← encoded? (← ofExpr? arg)
  return .bytes (← (decode data).toOption)

/-- Whether an argument of `decode` names UTF-8. -/
def namesUtf8 (arg : Expr) : Bool :=
  match arg.str? with
  | some s => ["utf-8", "utf8"].contains (String.ofList (s.toList.map Text.asciiLower))
  | none => false

def decodeText? (object : Expr) (args : List Expr) : Option Expr := do
  let b ← object.bytes?
  if args.all namesUtf8 then return .str (← (Text.Utf8.decode b).toOption) else none

/-- What an attribute of a module is written as; those of `builtins` need no module. -/
def attributeOf (module attr : String) : Expr :=
  if module == "builtins" then .name attr else .attribute (.name module) attr

/-- What a call of a plain name other than `eval` gives. -/
def reduceNamed? : String → List Expr → Option Expr
  | "bytes", [arg] => (ofExpr? arg).bind fun v => (octets? v).map Expr.bytes
  | "list", [arg] =>
    match ofExpr? arg with
    | some (.list _) => some arg
    | _ => none
  | "getattr", [object, attr] => do return attributeOf (← object.imported?) (← attr.str?)
  | _, _ => none

/-- What a call other than that of `eval` gives. -/
def reduceCall? : Expr → List Expr → Option Expr
  | .name id, args => reduceNamed? id args
  | .attribute object "decode", args => decodeText? object args
  | .attribute (.name module) function, [arg] => decodeCall? module function arg
  | _, _ => none

def bound? : Option Expr → Option (Option Int)
  | none => some none
  | some e => (ofExpr? e).bind fun v => v.asInt?.map some

/-- The part of a literal that a subscript selects. -/
def reduceSubscript? (object slice : Expr) : Option Expr := do
  let v ← ofExpr? object
  match slice with
  | .slice lower upper step =>
    let bounds := Value.Bounds.mk (← bound? lower) (← bound? upper) (← bound? step)
    return (← (v.slice bounds).toOption).toExpr
  | position => return (← (v.index (← ofExpr? position)).toOption).toExpr

/-- Reads decimal digits, the first of which may not be an underscore. -/
def digitsValue? (digits : List Char) : Option Nat :=
  if digits.head? == some '_' || digits.isEmpty then none
  else
    let digits := digits.filter (· != '_')
    if digits.all Text.isAsciiDigit then some (Decimal.digitsValue digits) else none

def integer? : List Char → Option Int
  | '-' :: digits => (digitsValue? digits).map fun n => -(n : Int)
  | '+' :: digits => (digitsValue? digits).map Int.ofNat
  | digits => (digitsValue? digits).map Int.ofNat

/-- The numbers between the dots of an address. -/
def quads? (address : Value) : Option (List Int) := do
  (Text.splitChars '.' (← address.asText?).toList).mapM fun part => integer? (Text.trimChars part)

/-- The numbers of addresses with dots, in
`[int(n) for ip in [… for … in ['1.2.3.4', …]] for n in ip.split('.')]`. -/
def dottedQuads? (elt : Expr) (generators : List Comprehension) : Option Expr :=
  match elt.isCallOf "int", generators with
  | true, [⟨_, .listComp _ [source], _, _⟩, _] =>
    match ofExpr? source.iter with
    | some (.list addresses) =>
      (addresses.mapM quads?).map fun numbers => .list (numbers.flatten.map Expr.int)
    | _ => none
  | _, _ => none

def reduceBinary? (left : Expr) (op : BinaryOp) (right : Expr) : Option Expr := do
  return (← ((← ofExpr? left).binary op (← ofExpr? right)).toOption).toExpr

def reduceUnary? (op : UnaryOp) (operand : Expr) : Option Expr := do
  return (← ((← ofExpr? operand).unary op).toOption).toExpr

/-- What an expression whose parts are folded gives, other than a call of `eval`. -/
def reduce? : Expr → Option Expr
  | .call func args [] => reduceCall? func args
  | .subscript object slice => reduceSubscript? object slice
  | .listComp elt generators => dottedQuads? elt generators
  | .binary left op right => reduceBinary? left op right
  | .unary op operand => reduceUnary? op operand
  | _ => none

def evalText? : Value → Option String
  | .str s => some s
  | .bytes b => (Text.Utf8.decode b).toOption
  | _ => none

/-- The expression in the text that `eval` is called on. -/
def evaluated? : Expr → Option Expr
  | .call (.name "eval") [arg] [] => do
    (Expr.parse (← evalText? (← ofExpr? arg))).toOption
  | _ => none

/-- The literals that names stand for, the latest one first. -/
abbrev Bindings := List (String × Value)

def binding? : Stmt → Option (String × Value)
  | .assign [.name id] value => (ofExpr? value).map fun v => (id, v)
  | _ => none

def boundLiteral? (bindings : Bindings) : Expr → Option Expr
  | .name id => (bindings.lookup id).map Value.toExpr
  | _ => none

section Folding

variable {m : Type → Type} [Monad m]

def foldStmt (s : Stmt) : StateT Bindings m (List Stmt) :=
  match binding? s with
  | some b => do
    modify (b :: ·)
    return []
  | none => return [s]

/-- Folds an expression whose parts are folded; `nested` folds the text given to `eval`. -/
def foldParts (nested : Expr → StateT Bindings m Expr) (e : Expr) : StateT Bindings m Expr :=
  match evaluated? e with
  | some inner => nested inner
  | none => return (reduce? e).getD e

def foldExpr (nested : Expr → StateT Bindings m Expr) (e : Expr) (walk : StateT Bindings m Expr) :
    StateT Bindings m Expr := do
  match boundLiteral? (← get) e with
  | some literal => return literal
  | none => foldParts nested (← walk)

/-- The fold, given what folds the text given to `eval`. -/
def folding (nested : Expr → StateT Bindings m Expr) : Fold (StateT Bindings m) where
  expr := foldExpr nested
  stmt _ walk := do foldStmt (← walk)

end Folding

/-- The fold with `eval` followed so many levels deep. -/
def folder : Nat → Fold (StateT Bindings Option)
  | 0 => folding fun _ => failure
  | n + 1 => folding fun e => (folder n).onExpr e

/-- How deep `eval` is followed: deeper than any run gets. -/
def maxNesting : Nat := Nat.pow 2 32

/-- A program with its constants folded and the names that were bound. -/
def foldWithin (nesting : Nat) (m : Module) : Option (Module × Bindings) :=
  ((folder nesting).onBody m).run []

/-- A program with its constants folded; it stays as it is beyond the limit. -/
def foldConstants (m : Module) : Module := ((foldWithin maxNesting m).map Prod.fst).getD m

end Unmask.BlankObf
