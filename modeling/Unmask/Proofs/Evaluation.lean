import Mathlib.Data.Int.Bitwise
import Unmask.Value.Basic

/-!
# What closed expressions evaluate to

The evaluator follows the language and not the folder: integers have any size, `//` and `%` round
down, `and` and `or` stop at the first operand that decides, text is indexed by characters, and a
slice walks from its start in steps until it passes its stop. All errors are one, `none`. What `%`
makes of text and octets, their formatting, is a parameter.
-/
namespace Unmask.Evaluation

/-- The integer that a value counts as. -/
def number? : Value → Option Int
  | .int n => some n
  | .bool true => some 1
  | .bool false => some 0
  | _ => none

/-- Whether a value counts as true. -/
def holds : Value → Bool
  | .none => false
  | .bool b => b
  | .int n => decide (n ≠ 0)
  | .float x => x != 0
  | .str s => decide (s ≠ "")
  | .bytes [] => false
  | .bytes (_ :: _) => true
  | .list [] => false
  | .list (_ :: _) => true

def unary (op : UnaryOp) (v : Value) : Option Value :=
  match op with
  | .not => some (.bool !holds v)
  | .plus => (number? v).map Value.int
  | .minus => (number? v).map fun n => .int (-n)
  | .invert => (number? v).map fun n => .int (-(n + 1))

/-- Arithmetic of integers. -/
def arithmetic (op : BinaryOp) (a b : Int) : Option Int :=
  match op with
  | .add => some (a + b)
  | .sub => some (a - b)
  | .mult => some (a * b)
  | .floorDiv => if b = 0 then none else some (a.fdiv b)
  | .mod => if b = 0 then none else some (a.fmod b)
  | .bitAnd => some (Int.land a b)
  | .bitOr => some (Int.lor a b)
  | .bitXor => some (Int.xor a b)
  | .shiftLeft => if b < 0 then none else some (a * 2 ^ b.toNat)
  | .shiftRight => if b < 0 then none else some (a.fdiv (2 ^ b.toNat))
  | _ => none

/-- The operators that give a truth value on two truth values. -/
def logical? (op : BinaryOp) (p q : Bool) : Option Bool :=
  match op with
  | .bitAnd => some (p && q)
  | .bitOr => some (p || q)
  | .bitXor => some (xor p q)
  | _ => none

def numeric (op : BinaryOp) (v w : Value) : Option Value :=
  match v, w with
  | .bool p, .bool q =>
    match logical? op p q with
    | some r => some (.bool r)
    | none => (number? v).bind fun a => (number? w).bind fun b => (arithmetic op a b).map .int
  | v, w => (number? v).bind fun a => (number? w).bind fun b => (arithmetic op a b).map .int

/-- A sequence repeated; a count below one gives the empty sequence. -/
def repeated (count : Int) : Value → Option Value
  | .str s => some (.str (String.ofList (List.replicate count.toNat s.toList).flatten))
  | .bytes b => some (.bytes (List.replicate count.toNat b).flatten)
  | .list items => some (.list (List.replicate count.toNat items).flatten)
  | _ => none

/-- Applies an operator with two operands; `format` is what `%` does on text and octets. -/
def binary (format : Value → Value → Option Value) (op : BinaryOp) (v w : Value) : Option Value :=
  match op, v, w with
  | .add, .str s, .str t => some (.str (s ++ t))
  | .add, .bytes a, .bytes b => some (.bytes (a ++ b))
  | .add, .list a, .list b => some (.list (a ++ b))
  | .mod, .str s, w => format (.str s) w
  | .mod, .bytes b, w => format (.bytes b) w
  | .mult, v, w =>
    match numeric .mult v w with
    | some n => some n
    | none =>
      match number? v, number? w with
      | some count, _ => repeated count w
      | _, some count => repeated count v
      | _, _ => none
  | op, v, w => numeric op v w

/-- The element at a place. -/
def at? {α : Type} (items : List α) (place : Int) : Option α :=
  if 0 ≤ place then items[place.toNat]? else none

/-- The element at an index, which counts from the end if it is negative. -/
def element? {α : Type} (items : List α) (index : Int) : Option α :=
  at? items (if index < 0 then index + items.length else index)

def item (v key : Value) : Option Value :=
  (number? key).bind fun n =>
    match v with
    | .str s => (element? s.toList n).map fun c => .str (String.singleton c)
    | .bytes b => (element? b n).map fun o => .int o.toNat
    | .list items => element? items n
    | _ => none

/-- A bound of a slice moved into the sequence; where it may lie depends on the direction. -/
def adjusted (length step bound : Int) : Int :=
  if bound < 0 then
    if bound + length < 0 then (if step < 0 then -1 else 0) else bound + length
  else if length ≤ bound then (if step < 0 then length - 1 else length)
  else bound

/-- Where a slice starts. -/
def firstPlace (length step : Int) : Option Int → Int
  | none => if step < 0 then length - 1 else 0
  | some n => adjusted length step n

/-- Where a slice stops. -/
def endPlace (length step : Int) : Option Int → Int
  | none => if step < 0 then -1 else length
  | some n => adjusted length step n

/-- The numbers from `start` in steps that lie before `stop` in the direction of the step. -/
def progression (start stop step : Int) : List Int :=
  if 0 < step ∧ start < stop ∨ step < 0 ∧ stop < start then
    start :: progression (start + step) stop step
  else []
termination_by (if 0 < step then stop - start else start - stop).toNat
decreasing_by
  split <;> omega

/-- The elements of a slice. -/
def sliced {α : Type} (items : List α) (lower upper : Option Int) (step : Int) : Option (List α) :=
  (progression (firstPlace items.length step lower) (endPlace items.length step upper) step).mapM
    (at? items)

def slice (v : Value) (lower upper step : Option Int) : Option Value :=
  let step := step.getD 1
  if step = 0 then none
  else
    match v with
    | .str s => (sliced s.toList lower upper step).map fun cs => .str (String.ofList cs)
    | .bytes b => (sliced b lower upper step).map .bytes
    | .list items => (sliced items lower upper step).map .list
    | _ => none

/-- The value of a literal. -/
def literal? : Constant → Option Value
  | .none => some .none
  | .bool b => some (.bool b)
  | .int n => some (.int n)
  | .str s => some (.str s)
  | .bytes b => some (.bytes b)
  | _ => none

/-- Whether the operands behind this one are not looked at. -/
def stops (op : BoolOp) (v : Value) : Bool :=
  match op with
  | .and => !holds v
  | .or => holds v

variable (format : Value → Value → Option Value)

mutual

/-- The value of an expression, if it has one. -/
def eval : Expr → Option Value
  | .constant c => literal? c
  | .list items => (evalAll items).map Value.list
  | .unary op operand => (eval operand).bind (unary op)
  | .binary left op right => (eval left).bind fun v => (eval right).bind (binary format op v)
  | .bool op values => evalChain op values
  | .subscript value (.slice lower upper step) =>
    (eval value).bind fun v => (evalBound lower).bind fun l => (evalBound upper).bind fun u =>
      (evalBound step).bind (slice v l u)
  | .subscript value key => (eval value).bind fun v => (eval key).bind (item v)
  | _ => none

/-- A bound of a slice: an integer, if it is there. -/
def evalBound : Option Expr → Option (Option Int)
  | none => some none
  | some e => (eval e).bind fun v => (number? v).map some

def evalAll : List Expr → Option (List Value)
  | [] => some []
  | e :: rest => (eval e).bind fun v => (evalAll rest).map (v :: ·)

/-- The value of a chain: the first operand that stops it, or else the last one. -/
def evalChain (op : BoolOp) : List Expr → Option Value
  | [] => none
  | e :: rest => (eval e).bind fun v =>
    if rest.isEmpty || stops op v then some v else evalChain op rest

end

/-- The operators with two operands that stay within integers and sequences. -/
def exactOps : List BinaryOp :=
  [.add, .sub, .mult, .floorDiv, .mod, .bitAnd, .bitOr, .bitXor, .shiftLeft, .shiftRight]

/-- Expressions without names and floats. -/
inductive Closed : Expr → Prop where
  | int (n : Int) : Closed (.constant (.int n))
  | bool (b : Bool) : Closed (.constant (.bool b))
  | str (s : String) : Closed (.constant (.str s))
  | bytes (b : Bytes) : Closed (.constant (.bytes b))
  | list {items : List Expr} (h : ∀ e ∈ items, Closed e) : Closed (.list items)
  | unary {op : UnaryOp} {operand : Expr} (h : Closed operand) : Closed (.unary op operand)
  | binary {left right : Expr} {op : BinaryOp} (ho : op ∈ exactOps) (hl : Closed left)
      (hr : Closed right) : Closed (.binary left op right)
  | chain {op : BoolOp} {values : List Expr} (hlen : 2 ≤ values.length)
      (h : ∀ e ∈ values, Closed e) : Closed (.bool op values)
  | item {value key : Expr} (hv : Closed value) (hk : Closed key) : Closed (.subscript value key)
  | slice {value : Expr} {lower upper step : Option Expr} (hv : Closed value)
      (hl : ∀ e ∈ lower, Closed e) (hu : ∀ e ∈ upper, Closed e) (hs : ∀ e ∈ step, Closed e) :
      Closed (.subscript value (.slice lower upper step))

/-- Values without floats and `None`. -/
inductive Exact : Value → Prop where
  | bool (b : Bool) : Exact (.bool b)
  | int (n : Int) : Exact (.int n)
  | str (s : String) : Exact (.str s)
  | bytes (b : Bytes) : Exact (.bytes b)
  | list {items : List Value} (h : ∀ v ∈ items, Exact v) : Exact (.list items)

end Unmask.Evaluation
