import Unmask.Proofs.Evaluation
import Unmask.Proofs.MethodArguments

/-!
# What expressions evaluate to, tuples apart

The evaluator follows the language and keeps lists and tuples apart. It knows the calls and the
comprehensions that constants are hidden in: `bytes`, `list`, `int`, `decode`, `split`, and clauses
`for name in iterable if …`. What is not described has no value, like an error. Floats are not
computed here: what an operator gives that is a float is a parameter.
-/
namespace Unmask.Typed

/-- What an expression evaluates to. -/
inductive Datum where
  | none
  | bool (value : Bool)
  | int (value : Int)
  | float (value : Float)
  | str (value : String)
  | bytes (value : Bytes)
  | list (items : List Datum)
  | tuple (items : List Datum)
  | ellipsis

namespace Datum

mutual

/-- The value that a datum is taken for: a tuple is taken for a list. -/
def value? : Datum → Option Value
  | .none => some .none
  | .bool b => some (.bool b)
  | .int n => some (.int n)
  | .float x => some (.float x)
  | .str s => some (.str s)
  | .bytes b => some (.bytes b)
  | .list items => (values? items).map Value.list
  | .tuple items => (values? items).map Value.list
  | .ellipsis => Option.none

def values? : List Datum → Option (List Value)
  | [] => some []
  | d :: rest => d.value?.bind fun v => (values? rest).map (v :: ·)

end

mutual

/-- What the literal of a value evaluates to. -/
def ofValue : Value → Datum
  | .none => .none
  | .bool b => .bool b
  | .int n => .int n
  | .float x => .float x
  | .str s => .str s
  | .bytes b => .bytes b
  | .list items => .list (ofValues items)

def ofValues : List Value → List Datum
  | [] => []
  | v :: rest => ofValue v :: ofValues rest

end

def ofConstant : Constant → Datum
  | .none => .none
  | .bool b => .bool b
  | .int n => .int n
  | .float x => .float x
  | .str s => .str s
  | .bytes b => .bytes b
  | .ellipsis => .ellipsis

/-- A datum as an integer; the truth values count as one and zero. -/
def integer? : Datum → Option Int
  | .bool b => some (if b then 1 else 0)
  | .int n => some n
  | _ => Option.none

/-- A datum as a number. -/
def number? : Datum → Option Number
  | .float x => some (.float x)
  | d => d.integer?.map Number.int

/-- Whether a condition with this datum holds. -/
def holds : Datum → Bool
  | .none => false
  | .bool b => b
  | .int n => decide (n ≠ 0)
  | .float x => x != 0
  | .str s => decide (s ≠ "")
  | .bytes b => decide (b ≠ [])
  | .list [] => false
  | .list (_ :: _) => true
  | .tuple [] => false
  | .tuple (_ :: _) => true
  | .ellipsis => true

/-- What a loop over a datum goes through. -/
def items? : Datum → Option (List Datum)
  | .str s => some (s.toList.map fun c => .str (String.singleton c))
  | .bytes b => some (b.map fun o => .int o.toNat)
  | .list items => some items
  | .tuple items => some items
  | _ => Option.none

def unary (op : UnaryOp) (d : Datum) : Option Datum :=
  match op, d.number? with
  | .not, _ => some (.bool !d.holds)
  | .plus, some (.int n) => some (.int n)
  | .minus, some (.int n) => some (.int (-n))
  | .invert, some (.int n) => some (.int (-(n + 1)))
  | .plus, some (.float x) => some (.float x)
  | .minus, some (.float x) => some (.float (-x))
  | _, _ => Option.none

/-- What operators give that is a float: `/`, powers with a negative exponent, and whatever has a
float for an operand. -/
abbrev Floats := BinaryOp → Number → Number → Option Float

/-- Arithmetic of numbers. -/
def arithmetic (floats : Floats) (op : BinaryOp) : Number → Number → Option Datum
  | .int a, .int b =>
    match op with
    | .div => (floats .div (.int a) (.int b)).map Datum.float
    | .pow =>
      if 0 ≤ b then some (.int (a ^ b.toNat)) else (floats .pow (.int a) (.int b)).map Datum.float
    | op => (Evaluation.arithmetic op a b).map Datum.int
  | x, y => (floats op x y).map Datum.float

/-- Two sequences of one type in a row. -/
def joined : Datum → Datum → Option Datum
  | .str s, .str t => some (.str (s ++ t))
  | .bytes a, .bytes b => some (.bytes (a ++ b))
  | .list a, .list b => some (.list (a ++ b))
  | .tuple a, .tuple b => some (.tuple (a ++ b))
  | _, _ => Option.none

/-- A sequence repeated; a count below one gives the empty sequence. -/
def repeated (d count : Datum) : Option Datum :=
  count.integer?.bind fun n =>
    match d with
    | .str s => some (.str (String.ofList (List.replicate n.toNat s.toList).flatten))
    | .bytes b => some (.bytes (List.replicate n.toNat b).flatten)
    | .list items => some (.list (List.replicate n.toNat items).flatten)
    | .tuple items => some (.tuple (List.replicate n.toNat items).flatten)
    | _ => Option.none

/-- The bitwise operators on truth values. -/
def logical (op : BinaryOp) : Datum → Datum → Option Datum
  | .bool p, .bool q => (Evaluation.logical? op p q).map Datum.bool
  | _, _ => Option.none

def numeric (floats : Floats) (op : BinaryOp) (d e : Datum) : Option Datum :=
  d.number?.bind fun a => e.number?.bind (arithmetic floats op a)

/-- Applies an operator with two operands; what `%` does on text and octets is not described. -/
def binary (floats : Floats) (op : BinaryOp) (d e : Datum) : Option Datum :=
  match op with
  | .add => (joined d e).or (numeric floats .add d e)
  | .mult => ((repeated d e).or (repeated e d)).or (numeric floats .mult d e)
  | op => (logical op d e).or (numeric floats op d e)

def item (d key : Datum) : Option Datum :=
  key.integer?.bind fun n =>
    match d with
    | .str s => (Evaluation.element? s.toList n).map fun c => .str (String.singleton c)
    | .bytes b => (Evaluation.element? b n).map fun o => .int o.toNat
    | .list items => Evaluation.element? items n
    | .tuple items => Evaluation.element? items n
    | _ => Option.none

def slice (d : Datum) (lower upper step : Option Int) : Option Datum :=
  let step := step.getD 1
  if step = 0 then Option.none
  else
    match d with
    | .str s => (Evaluation.sliced s.toList lower upper step).map fun cs => .str (String.ofList cs)
    | .bytes b => (Evaluation.sliced b lower upper step).map Datum.bytes
    | .list items => (Evaluation.sliced items lower upper step).map Datum.list
    | .tuple items => (Evaluation.sliced items lower upper step).map Datum.tuple
    | _ => Option.none

end Datum

/-- Decimal digits with single low lines between them. -/
def spelled : List Char → Bool
  | [] => false
  | [c] => Text.isAsciiDigit c
  | c :: '_' :: rest => Text.isAsciiDigit c && spelled rest
  | c :: rest => Text.isAsciiDigit c && spelled rest

/-- How many digits of a text `int` accepts. -/
def maxDigits : Nat := 4300

/-- The number that a numeral without a sign denotes. -/
def natural? (cs : List Char) : Option Nat :=
  let digits := cs.filter (· != '_')
  if spelled cs ∧ digits.length ≤ maxDigits then some (Nat.ofDigitChars 10 digits 0) else none

/-- The number that a numeral denotes. -/
def numeral? : List Char → Option Int
  | '-' :: cs => (natural? cs).map fun n : Nat => -(n : Int)
  | '+' :: cs => (natural? cs).map Int.ofNat
  | cs => (natural? cs).map Int.ofNat

/-- An octet is an integer below 256. -/
def octet? (d : Datum) : Option UInt8 :=
  d.integer?.bind fun n => if 0 ≤ n ∧ n < 256 then some (UInt8.ofNat n.toNat) else none

/-- What a call of a function that the language has gives. -/
def call : String → List Datum → Option Datum
  | "bytes", [.bytes b] => some (.bytes b)
  | "bytes", [.list items] => (items.mapM octet?).map Datum.bytes
  | "bytes", [.tuple items] => (items.mapM octet?).map Datum.bytes
  | "list", [d] => d.items?.map Datum.list
  | "int", [.str s] => (numeral? (Text.trimChars s.toList)).map Datum.int
  | "int", [d] => d.integer?.map Datum.int
  | _, _ => none

/-- Whether arguments of `decode` ask for UTF-8. -/
def asksUtf8 : List Datum → Bool
  | [] => true
  | [.str encoding] => decide (Charset.ofName? encoding = some .utf8)
  | [.str encoding, .str policy] =>
    decide (Charset.ofName? encoding = some .utf8) && decide ('\x00' ∉ policy.toList)
  | _ => false

/-- What a call of a method gives. -/
def callMethod : String → Datum → List Datum → Option Datum
  | "decode", .bytes b, args =>
    if asksUtf8 args then (Text.Utf8.decode b).toOption.map Datum.str else none
  | "split", .str s, [.str separator] =>
    match separator.toList with
    | [c] => some (.list ((s.toList.splitOn c).map fun cs => .str (String.ofList cs)))
    | _ => none
  | _, _, _ => none

/-- What names stand for, the latest first. A name that a comprehension binds stands for nothing
until it is bound. -/
abbrev Env := Named (Option Datum)

section Evaluation

variable (floats : Datum.Floats)

mutual

/-- What an expression evaluates to. -/
def eval (env : Env) : Expr → Option Datum
  | .name id => (env.lookup id).join
  | .constant c => some (.ofConstant c)
  | .list items => (evalAll env items).map Datum.list
  | .tuple items => (evalAll env items).map Datum.tuple
  | .unary op operand => (eval env operand).bind (Datum.unary op)
  | .binary left op right =>
    (eval env left).bind fun d => (eval env right).bind (Datum.binary floats op d)
  | .subscript value (.slice lower upper step) =>
    (eval env value).bind fun d => (evalBound env lower).bind fun l =>
      (evalBound env upper).bind fun u => (evalBound env step).bind (d.slice l u)
  | .subscript value key => (eval env value).bind fun d => (eval env key).bind d.item
  | .call (.name f) args [] =>
    match env.lookup f with
    | none => (evalAll env args).bind (call f)
    | some _ => none
  | .call (.attribute object attr) args [] =>
    (eval env object).bind fun d => (evalAll env args).bind (callMethod attr d)
  | .listComp elt generators =>
    -- The names are local, and the first loop alone goes over what stands outside.
    let names := generators.filterMap (·.target.name?)
    if names.Nodup then
      (evalClauses env (names.map (·, none) ++ env) (fun inner => eval inner elt) generators).map
        Datum.list
    else none
  | _ => none

/-- A bound of a slice: an integer, if it is there. -/
def evalBound (env : Env) : Option Expr → Option (Option Int)
  | none => some none
  | some e => (eval env e).bind fun d => d.integer?.map some

def evalAll (env : Env) : List Expr → Option (List Datum)
  | [] => some []
  | e :: rest => (eval env e).bind fun d => (evalAll env rest).map (d :: ·)

/-- Whether all filters hold; what follows one that does not is not looked at. -/
def pass (env : Env) : List Expr → Option Bool
  | [] => some true
  | e :: rest => (eval env e).bind fun d => if d.holds then pass env rest else some false

/-- The elements that loops give, one within the other. -/
def evalClauses (env inner : Env) (element : Env → Option Datum) :
    List Comprehension → Option (List Datum)
  | [] => (element inner).map ([·])
  | ⟨.name id, iter, ifs, false⟩ :: rest =>
    (eval env iter).bind fun d => d.items?.bind fun items =>
      (items.mapM fun item =>
        let inner := (id, some item) :: inner
        (pass inner ifs).bind fun passed =>
          if passed then evalClauses inner inner element rest else some []).map List.flatten
  | _ :: _ => none

end

end Evaluation

/-- Expressions built from constants that are no floats, names, displays, operators, subscripts,
calls of `bytes`, `list`, `int`, `decode` and `split`, and list comprehensions, each part with a
property. -/
inductive Built (Has : Expr → Prop) : Expr → Prop where
  | constant {c : Constant} (hc : ∀ x, c ≠ .float x) (h : Has (.constant c)) :
    Built Has (.constant c)
  | name {id : String} (h : Has (.name id)) : Built Has (.name id)
  | list {items : List Expr} (hitems : ∀ e ∈ items, Built Has e) (h : Has (.list items)) :
    Built Has (.list items)
  | tuple {items : List Expr} (hitems : ∀ e ∈ items, Built Has e) (h : Has (.tuple items)) :
    Built Has (.tuple items)
  | unary {op : UnaryOp} {operand : Expr} (hoperand : Built Has operand)
    (h : Has (.unary op operand)) : Built Has (.unary op operand)
  | binary {left right : Expr} {op : BinaryOp} (hleft : Built Has left) (hright : Built Has right)
    (h : Has (.binary left op right)) : Built Has (.binary left op right)
  | item {value key : Expr} (hvalue : Built Has value) (hkey : Built Has key)
    (h : Has (.subscript value key)) : Built Has (.subscript value key)
  | slice {value : Expr} {lower upper step : Option Expr} (hvalue : Built Has value)
    (hlower : ∀ e ∈ lower, Built Has e) (hupper : ∀ e ∈ upper, Built Has e)
    (hstep : ∀ e ∈ step, Built Has e) (h : Has (.subscript value (.slice lower upper step))) :
    Built Has (.subscript value (.slice lower upper step))
  | call {f : String} {args : List Expr} {keywords : List Keyword}
    (hf : f ∈ ["bytes", "list", "int"]) (hargs : ∀ e ∈ args, Built Has e)
    (h : Has (.call (.name f) args keywords)) : Built Has (.call (.name f) args keywords)
  | method {object : Expr} {attr : String} {args : List Expr} {keywords : List Keyword}
    (hattr : attr ∈ ["decode", "split"]) (hobject : Built Has object)
    (hargs : ∀ e ∈ args, Built Has e) (h : Has (.call (.attribute object attr) args keywords)) :
    Built Has (.call (.attribute object attr) args keywords)
  | listComp {elt : Expr} {generators : List Comprehension} (helt : Built Has elt)
    (hiters : ∀ g ∈ generators, Built Has g.iter) (h : Has (.listComp elt generators)) :
    Built Has (.listComp elt generators)

variable {Has : Expr → Prop} {floats : Datum.Floats} {env : Env}

lemma Built.ne_slice {e : Expr} (h : Built Has e) :
    ∀ lower upper step, e ≠ .slice lower upper step := by
  rintro lower upper step rfl
  cases h

lemma eval_item {value key : Expr} (h : Built Has key) :
    eval floats env (.subscript value key) =
      (eval floats env value).bind fun d => (eval floats env key).bind d.item := by
  rw [eval]
  exact h.ne_slice

end Unmask.Typed
